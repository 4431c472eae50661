import DeadDrop.Proofs.Exchange.Record
import DeadDrop.Proofs.Http.Calls
import DeadDrop.Proofs.Secret.Id
import DeadDrop.Proofs.Service.Fate

/-!
What becomes of a one-time secret over HTTP, told from requests and responses alone. While its time
lasts it either waits, and whoever asks for it gets it in full, or exactly one request took it: a
GET answered with the whole secret, a DELETE answered 204, or a HEAD, which takes the secret as a
GET does and hands nobody anything. No other request touches it.
-/

namespace DeadDrop

/-- The secret that a creation left, and its id. -/
def Service.Event.left? : Event → Option (SecretId × Secret)
  | created secret (.ok id) => some (id, secret)
  | _ => none

namespace Http

open Service (Call Event World)

inductive Input where
  | request (request : Request)
  | wait (nanoseconds : Nat)

inductive Turn where
  | answered (request : Request) (response : Response)
  | waited (nanoseconds : Nat)

namespace Turn

def span : Turn → Nat
  | waited nanoseconds => nanoseconds
  | _ => 0

def elapsed (turns : List Turn) : Nat := (turns.map span).sum

end Turn

namespace Api

variable {State Seed : Type}

def serve (api : Api State Seed) : Input → World State Seed → Option (Turn × World State Seed)
  | .request request, world =>
      let (response, next) := api.handle request world
      some (.answered request response, next)
  | .wait nanoseconds, world =>
      (world.advance? nanoseconds).map fun next => (.waited nanoseconds, next)

def left? (api : Api State Seed) : Turn → Option (SecretId × Secret)
  | .answered request response =>
      if request.method = .post ∧ api.route? request = some .drop ∧ response.status = 200 then
        match readSecret api.service.policy request,
          Exchange.Notice.decode (Text.Utf8.bytes response.body) with
        | .ok secret, .ok notice => (SecretId.ofText? notice.message).map fun id => (id, secret)
        | _, _ => none
      else none
  | .waited _ => none

def FreshNames (api : Api State Seed) (turns : List Turn) : Prop :=
  (turns.filterMap fun turn => (api.left? turn).map Prod.fst).Nodup

/-- Somebody got the secret in full, or had it removed. -/
def hands (api : Api State Seed) (id : SecretId) (secret : Secret) : Turn → Bool
  | .answered request response =>
      api.named? request = some id &&
        match request.method with
        | .get => response.status = 200 && response.body = secret.encode
        | .delete => response.status = 204
        | _ => false
  | .waited _ => false

/-- A HEAD found the secret; its response has no body. -/
def heads (api : Api State Seed) (id : SecretId) : Turn → Bool
  | .answered request response =>
      api.named? request = some id && request.method = .head && response.status = 200 &&
        response.body = ""
  | .waited _ => false

def takes (api : Api State Seed) (id : SecretId) (secret : Secret) (turn : Turn) : Bool :=
  api.hands id secret turn || api.heads id turn

/-- Whoever asks for the secret gets it. -/
def Shows (api : Api State Seed) (id : SecretId) (secret : Secret)
    (world : World State Seed) : Prop :=
  ∀ request, request.method = .get → api.named? request = some id →
    (api.handle request world).1.status = 200 ∧
      (api.handle request world).1.body = secret.encode

def Hides (api : Api State Seed) (id : SecretId) (world : World State Seed) : Prop :=
  ∀ request, request.method = .get → api.named? request = some id →
    (api.handle request world).1.status = 404

section Turns

/-- The call that a turn was about, and how the service answered it. -/
inductive Tells (api : Api State Seed) : Turn → Option Event → Prop where
  | idle {request : Request} {response : Response} : api.call? request = none →
      Tells api (.answered request response) none
  | called {request : Request} {event : Event} : api.call? request = some event.call →
      Tells api (.answered request (dress api.settings request.method (respond event))) (some event)
  | waited (nanoseconds : Nat) : Tells api (.waited nanoseconds) (some (.waited nanoseconds))

variable {api : Api State Seed} {turn : Turn} {event? : Option Event} {id : SecretId}
  {secret : Secret}

theorem refused_status (error : Service.Error) :
    400 ≤ (Error.ofService error).response.status := by
  unfold Error.ofService
  split
  · exact Nat.le_of_ble_eq_true rfl
  · cases error <;> exact Nat.le_of_ble_eq_true rfl

theorem span_of_tells (tells : api.Tells turn event?) :
    turn.span = (event?.map Event.span).getD 0 := by
  cases tells with
  | idle silent => rfl
  | waited nanoseconds => rfl
  | @called request event asked =>
      cases event with
      | waited nanoseconds => cases asks_of_call? asked
      | _ => rfl

theorem left?_of_not_post {request : Request} (response : Response)
    (other : request.method ≠ .post) : api.left? (.answered request response) = none := by
  rw [left?, if_neg]
  exact fun conditions => other conditions.1

theorem left?_of_created {request : Request} (asked : api.call? request = some (.create secret))
    (reply : Except Service.Error SecretId) :
    api.left? (.answered request
        (dress api.settings request.method (respond (.created secret reply)))) =
      (Event.created secret reply).left? := by
  obtain ⟨method, found, given⟩ : request.method = .post ∧ api.route? request = some .drop ∧
      readSecret api.service.policy request = .ok secret := by
    cases asks_of_call? asked with
    | create method found given => exact ⟨method, found, given⟩
  cases reply with
  | error error =>
      have refused := refused_status error
      rw [left?, if_neg]
      · rfl
      · rintro ⟨-, -, good⟩
        simp only [dress, respond] at good
        omega
  | ok id =>
      have body : (dress api.settings request.method (respond (.created secret (.ok id)))).body =
          Exchange.Notice.encode ⟨id.text⟩ := by
        rw [method]
        rfl
      rw [left?, if_pos ⟨method, found, rfl⟩, given, body, Exchange.Notice.decode_encode]
      simp only [SecretId.ofText?_text]
      rfl

theorem left?_of_tells (tells : api.Tells turn event?) :
    api.left? turn = event?.bind Event.left? := by
  cases tells with
  | waited nanoseconds => rfl
  | @idle request response silent =>
      rw [left?]
      split
      · next conditions =>
          cases given : readSecret api.service.policy request with
          | error error => rfl
          | ok secret =>
              rw [call?_of_creation conditions.1 conditions.2.1 given] at silent
              cases silent
      · rfl
  | @called request event asked =>
      cases event with
      | created secret reply => exact left?_of_created asked reply
      | retrieved id reply =>
          apply left?_of_not_post
          cases asks_of_call? asked with
          | retrieve reads named => rcases reads with method | method <;> simp [method]
      | deleted id reply =>
          apply left?_of_not_post
          cases asks_of_call? asked with
          | delete method named => simp [method]
      | inspected id reply =>
          apply left?_of_not_post
          cases asks_of_call? asked with
          | status reads named => rcases reads with method | method <;> simp [method]
      | purged reply => cases asks_of_call? asked
      | waited nanoseconds => cases asks_of_call? asked

theorem created_of_left? (tells : api.Tells turn event?)
    (left : api.left? turn = some (id, secret)) : event? = some (.created secret (.ok id)) := by
  rw [left?_of_tells tells] at left
  obtain ⟨event, rfl, made⟩ := Option.bind_eq_some_iff.mp left
  unfold Event.left? at made
  split at made
  · cases made
    rfl
  · cases made

theorem takes_of_elsewhere {request : Request} (response : Response)
    (elsewhere : api.named? request ≠ some id) :
    api.takes id secret (.answered request response) = false := by
  simp [takes, hands, heads, elsewhere]

theorem takes_of_other_method {request : Request} (response : Response)
    (other : request.method ≠ .get ∧ request.method ≠ .head ∧ request.method ≠ .delete) :
    api.takes id secret (.answered request response) = false := by
  obtain ⟨get, head, delete⟩ := other
  cases method : request.method <;> simp_all [takes, hands, heads]

theorem takes_of_refused {request : Request} {response : Response}
    (refused : 400 ≤ response.status) :
    api.takes id secret (.answered request response) = false := by
  have good : response.status ≠ 200 := by omega
  have gone : response.status ≠ 204 := by omega
  cases method : request.method <;> simp [takes, hands, heads, method, good, gone]

theorem takes_of_idle {request : Request} (response : Response)
    (silent : api.call? request = none) :
    api.takes id secret (.answered request response) = false := by
  by_cases named : api.named? request = some id
  · apply takes_of_other_method
    refine ⟨?_, ?_, ?_⟩
    · intro method
      rw [call?_of_reading (.inl method) named] at silent
      cases silent
    · intro method
      rw [call?_of_reading (.inr method) named] at silent
      cases silent
    · intro method
      rw [call?_of_removal method named] at silent
      cases silent
  · exact takes_of_elsewhere response named

/-- A reading that succeeds is a taking, also where the response leaves the secret out. -/
theorem takes_of_delivered {request : Request}
    (reads : request.method = .get ∨ request.method = .head)
    (named : api.named? request = some id) :
    api.takes id secret (.answered request
      (dress api.settings request.method (respond (.retrieved id (.ok secret))))) = true := by
  rcases reads with method | method
  · simp [takes, hands, heads, dress, respond, json, named, method]
  · simp [takes, hands, heads, dress, respond, json, named, method]

theorem takes_of_deleted {request : Request} {other : SecretId} (existed : Bool)
    (method : request.method = .delete) (named : api.named? request = some other) :
    api.takes id secret (.answered request
        (dress api.settings request.method (respond (.deleted other (.ok existed))))) =
      (Event.deleted other (.ok existed)).takes id := by
  cases existed with
  | true =>
      simp [takes, hands, heads, dress, respond, empty, named, method, Event.takes]
  | false =>
      rw [takes_of_refused]
      · simp [Event.takes]
      · exact Nat.le_of_ble_eq_true rfl

theorem takes_of_tells (tells : api.Tells turn event?) (once : secret.oneTime = true)
    (whole : ∀ delivered, event? = some (.retrieved id (.ok delivered)) → delivered = secret) :
    api.takes id secret turn = (event?.map (Event.takes id)).getD false := by
  cases tells with
  | waited nanoseconds => rfl
  | @idle request response silent => exact takes_of_idle response silent
  | @called request event asked =>
      simp only [Option.map_some, Option.getD_some]
      cases event with
      | created left reply =>
          cases asks_of_call? asked with
          | create method found given => exact takes_of_other_method _ (by simp [method])
      | retrieved other reply =>
          cases asks_of_call? asked with
          | retrieve reads named =>
              cases reply with
              | error error => exact takes_of_refused (refused_status error)
              | ok delivered =>
                  -- A HEAD shows nothing; that it took this secret, the history says.
                  by_cases same : other = id
                  · subst same
                    have full := whole delivered rfl
                    subst full
                    rw [takes_of_delivered reads named]
                    simp [Event.takes, once]
                  · rw [takes_of_elsewhere _ (by simpa [named] using same)]
                    simp [Event.takes, same]
      | deleted other reply =>
          cases asks_of_call? asked with
          | delete method named =>
              cases reply with
              | error error => exact takes_of_refused (refused_status error)
              | ok existed => exact takes_of_deleted existed method named
      | inspected other reply =>
          cases asks_of_call? asked with
          | status reads named => exact takes_of_elsewhere _ (by simp [named])
      | purged reply => cases asks_of_call? asked
      | waited nanoseconds => cases asks_of_call? asked

end Turns

section Runs

abbrev Tale := List (Turn × Option Event)

def Tale.turns (tale : Tale) : List Turn := tale.map Prod.fst

def Tale.history (tale : Tale) : List Event := tale.filterMap Prod.snd

def Told (api : Api State Seed) (tale : Tale) : Prop := ∀ pair ∈ tale, api.Tells pair.1 pair.2

variable {api : Api State Seed} {start world next : World State Seed} {turn : Turn}
  {turns : List Turn} {id : SecretId} {secret : Secret}

theorem serve_tells {input : Input} (served : api.serve input world = some (turn, next)) :
    (api.Tells turn none ∧ next = world) ∨
      ∃ event, api.Tells turn (some event) ∧
        api.service.perform event.call world = some (event, next) := by
  cases input with
  | wait nanoseconds =>
      obtain ⟨later, moved, same⟩ := Option.map_eq_some_iff.mp served
      cases same
      refine Or.inr ⟨.waited nanoseconds, .waited nanoseconds, ?_⟩
      simp only [Event.call, Service.perform, moved, Option.map_some]
  | request request =>
      obtain ⟨response, later, ends, handled⟩ := api.handle_ends request world
      simp only [serve, handled] at served
      cases served
      generalize asked : api.call? request = call? at ends
      cases ends with
      | idle => exact Or.inl ⟨.idle asked, rfl⟩
      | called performed => exact Or.inr ⟨_, .called asked, performed⟩

theorem replay_tells {inputs : List Input}
    (ran : replay api.serve inputs start = some (turns, world)) :
    ∃ tale : Tale, tale.turns = turns ∧ api.Told tale ∧
      replay api.service.perform (tale.history.map Event.call) start =
        some (tale.history, world) := by
  induction inputs generalizing start turns with
  | nil =>
      cases ran
      exact ⟨[], rfl, by simp [Told], rfl⟩
  | cons input rest ih =>
      obtain ⟨turn, next, later, served, ran', rfl⟩ := replay_cons_eq_some.mp ran
      obtain ⟨tale, rfl, told, performed⟩ := ih ran'
      -- A turn without a call leaves the world alone, so the history does without it.
      rcases serve_tells served with ⟨tells, rfl⟩ | ⟨event, tells, moved⟩
      · refine ⟨(turn, none) :: tale, rfl, ?_, performed⟩
        exact List.forall_mem_cons.mpr ⟨tells, told⟩
      · refine ⟨(turn, some event) :: tale, rfl, List.forall_mem_cons.mpr ⟨tells, told⟩, ?_⟩
        exact replay_cons_eq_some.mpr ⟨event, next, tale.history, moved, performed, rfl⟩

variable {tale : Tale}

theorem Tale.split {before after : List Turn} (split : tale.turns = before ++ turn :: after) :
    ∃ early event? late, tale = early ++ (turn, event?) :: late ∧
      Tale.turns early = before ∧ Tale.turns late = after := by
  obtain ⟨early, rest, rfl, rfl, others⟩ := List.map_eq_append_iff.mp split
  obtain ⟨⟨_, event?⟩, late, rfl, rfl, rfl⟩ := List.map_eq_cons_iff.mp others
  exact ⟨early, event?, late, rfl, rfl, rfl⟩

theorem elapsed_of_told (told : api.Told tale) :
    Turn.elapsed tale.turns = Service.elapsed tale.history := by
  induction tale with
  | nil => rfl
  | cons pair rest ih =>
      obtain ⟨first, others⟩ := List.forall_mem_cons.mp told
      have later := ih others
      have now := span_of_tells first
      obtain ⟨turn, event?⟩ := pair
      have both : Turn.elapsed (Tale.turns ((turn, event?) :: rest)) =
          turn.span + Turn.elapsed (Tale.turns rest) := by
        simp [Turn.elapsed, Tale.turns]
      rw [both, later, now]
      cases event? with
      | none => simp [Tale.history]
      | some event => simp [Tale.history, Service.elapsed]

theorem countP_takes_of_told (told : api.Told tale) (once : secret.oneTime = true)
    (whole : ∀ delivered, .retrieved id (.ok delivered) ∈ tale.history → delivered = secret) :
    tale.turns.countP (api.takes id secret) = tale.history.countP (Event.takes id) := by
  induction tale with
  | nil => rfl
  | cons pair rest ih =>
      obtain ⟨first, others⟩ := List.forall_mem_cons.mp told
      obtain ⟨turn, event?⟩ := pair
      cases event? with
      | none =>
          have later := ih others whole
          have now : api.takes id secret turn = false := takes_of_tells first once nofun
          simp only [Tale.turns, Tale.history] at later ⊢
          simp [now, later]
      | some event =>
          have later := ih others fun delivered member =>
            whole delivered (List.mem_cons_of_mem event member)
          have now : api.takes id secret turn = event.takes id := by
            apply takes_of_tells first once
            intro delivered same
            cases same
            exact whole delivered List.mem_cons_self
          simp only [Tale.turns, Tale.history] at later ⊢
          simp [now, later, List.countP_cons]

theorem createdId?_eq (event : Event) : event.createdId? = event.left?.map Prod.fst := by
  cases event with
  | created secret reply => cases reply <;> rfl
  | _ => rfl

theorem freshIds_of_told (told : api.Told tale) (fresh : api.FreshNames tale.turns) :
    Service.FreshIds tale.history := by
  have same : tale.history.filterMap Event.createdId? =
      tale.turns.filterMap fun turn => (api.left? turn).map Prod.fst := by
    rw [Tale.history, Tale.turns, List.filterMap_filterMap, List.filterMap_map]
    apply List.filterMap_congr
    rintro ⟨turn, event?⟩ member
    have left := left?_of_tells (told _ member)
    cases event? with
    | none => simp [left]
    | some event => simp [left, createdId?_eq]
  rw [Service.FreshIds, same]
  exact fresh

end Runs

section Reading

variable {api : Api State Seed} {world : World State Seed} {request : Request} {id : SecretId}
  {secret : Secret}

theorem handle_reading (method : request.method = .get)
    (named : api.named? request = some id) :
    (api.handle request world).1 =
      dress api.settings .get (respond (.retrieved id (api.service.retrieve id world).1)) :=
  congrArg Prod.fst (handle_get method named)

theorem shows_of_retrieve (found : (api.service.retrieve id world).1 = .ok secret) :
    api.Shows id secret world := by
  intro request method named
  rw [handle_reading method named, found]
  exact ⟨rfl, rfl⟩

theorem hides_of_retrieve (missed : (api.service.retrieve id world).1 = .error .notFound) :
    api.Hides id world := by
  intro request method named
  rw [handle_reading method named, missed]
  rfl

theorem Shows.not_hides (shows : api.Shows id secret world) : ¬ api.Hides id world := by
  intro hides
  let request : Request := ⟨.get, pathTo id, [], []⟩
  have named : api.named? request = some id := named?_of_path rfl
  have good := (shows request rfl named).1
  rw [hides request rfl named] at good
  cases good

end Reading

open Store (memory Memory memory_keeps Deposit Keeps Book)

/-- While its time lasts, a one-time secret is taken once at most; it is shown to whoever asks as
long as nobody took it, and hidden once somebody did. -/
theorem shown_until_taken_once {Seed : Type} (api : Api Memory Seed)
    (store : api.service.store = memory) (inputs : List Input) (clock : Clock) (seed : Seed)
    (before after : List Turn) (turn : Turn) (world : World Memory Seed)
    (ran : replay api.serve inputs ⟨clock, Memory.empty, seed⟩ =
      some (before ++ turn :: after, world))
    (fresh : api.FreshNames (before ++ turn :: after)) (id : SecretId) (secret : Secret)
    (left : api.left? turn = some (id, secret)) (once : secret.oneTime = true)
    (young : Turn.elapsed after < Deposit.lifespan secret) :
    after.countP (api.takes id secret) ≤ 1 ∧
      (api.Shows id secret world ↔ after.countP (api.takes id secret) = 0) ∧
      (api.Hides id world ↔ after.countP (api.takes id secret) = 1) := by
  have keeps : Keeps api.service.store False Memory.Mirrors := by
    rw [store]
    exact memory_keeps
  obtain ⟨tale, split, told, performed⟩ := replay_tells ran
  have fresh' : Service.FreshIds tale.history := freshIds_of_told told (split ▸ fresh)
  obtain ⟨explained, tracks⟩ :=
    Service.replay_told keeps (Memory.Mirrors.empty clock.elapsed) performed
  obtain ⟨early, event?, late, rfl, rfl, rfl⟩ := Tale.split split
  cases created_of_left? (told (turn, event?) (by simp)) left
  have rows : Tale.history (early ++ (turn, some (.created secret (.ok id))) :: late) =
      Tale.history early ++ .created secret (.ok id) :: Tale.history late := by
    simp [Tale.history]
  rw [rows] at fresh' explained tracks
  have later : api.Told late := fun pair member => told pair (by simp [member])
  rw [elapsed_of_told later] at young
  -- Whatever was delivered under the id since is the secret that was left there.
  have created : .created secret (.ok id) ∈
      Tale.history early ++ .created secret (.ok id) :: Tale.history late := by simp
  have whole (delivered : Secret)
      (member : .retrieved id (.ok delivered) ∈ Tale.history late) : delivered = secret := by
    apply (Service.delivered_once explained fresh' created once).2
    exact List.mem_append_right _ (List.mem_cons_of_mem _ member)
  rw [countP_takes_of_told later once whole]
  rcases Service.waits_or_taken_once explained fresh' young with ⟨live, untaken⟩ | ⟨dead, taken⟩
  · have shows : api.Shows id secret world :=
      shows_of_retrieve (Service.retrieve_of_live keeps tracks live)
    have apart := shows.not_hides
    rw [untaken]
    exact ⟨Nat.zero_le 1, by simpa using shows, by simpa using apart⟩
  · have hides : api.Hides id world :=
      hides_of_retrieve (Service.retrieve_of_dead keeps tracks dead)
    have apart : ¬ api.Shows id secret world := fun shows => shows.not_hides hides
    rw [taken]
    exact ⟨Nat.le_refl 1, by simpa using apart, by simpa using hides⟩

/-! A note is left. Whoever asks with GET gets it, whoever asks with HEAD loses it. -/
section Asking

open Service (countedIds note firstId)

def counted : Api Memory Nat := ⟨⟨memory, countedIds, .standard⟩, .standard⟩

def posting : Request :=
  ⟨.post, "/secret".toList, [("content-type", "application/json")], Text.Utf8.bytes note.encode⟩

def asking (method : Method) : Request := ⟨method, pathTo firstId, [], []⟩

def opened : World Memory Nat := ⟨.start 0, Memory.empty, 0⟩

def posted : Response × World Memory Nat :=
  (dress .standard .post (json 200 (Exchange.Notice.encode ⟨firstId.text⟩)),
    ⟨.start 0, [(firstId, ⟨note, 0, Deposit.lifespan note⟩)], 1⟩)

def asked (method : Method) : Response × World Memory Nat :=
  counted.handle (asking method) posted.2

def posts : Turn := .answered posting posted.1

def asks (method : Method) : Turn := .answered (asking method) (asked method).1

theorem call?_posting : counted.call? posting = some (.create note) :=
  call?_of_creation rfl (by decide +kernel) (by decide +kernel)

theorem handle_posting : counted.handle posting opened = posted := by
  obtain ⟨event, next, performed, handled⟩ := handle_call call?_posting
  have created : counted.service.perform (.create note) opened =
      some (.created note (.ok firstId), posted.2) := by decide +kernel
  rw [created] at performed
  cases performed
  exact handled

theorem replay_asking (method : Method) :
    replay counted.serve [.request posting, .request (asking method)] opened =
      some ([posts, asks method], (asked method).2) := by
  simp only [replay, serve, handle_posting, posts, asks, asked]

theorem left?_posts : counted.left? posts = some (firstId, note) :=
  left?_of_created call?_posting (.ok firstId)

theorem freshNames_asking {method : Method} (other : method ≠ .post) :
    counted.FreshNames [posts, asks method] := by
  have nothing : counted.left? (asks method) = none := left?_of_not_post _ other
  simp [FreshNames, left?_posts, nothing]

theorem note_is_handed_once :
    replay counted.serve [.request posting, .request (asking .get)] opened =
        some ([posts, asks .get], (asked .get).2) ∧
      counted.hands firstId note (asks .get) = true ∧ counted.Hides firstId (asked .get).2 := by
  have taken : [asks .get].countP (counted.takes firstId note) = 1 := by decide +kernel
  obtain ⟨-, -, hides⟩ := shown_until_taken_once counted rfl
    [.request posting, .request (asking .get)] (.start 0) 0 [] [asks .get] posts (asked .get).2
    (replay_asking .get) (freshNames_asking (by decide)) firstId note left?_posts rfl
    (by decide +kernel)
  exact ⟨replay_asking .get, by decide +kernel, hides.mpr taken⟩

/-- The note is gone well before its time, and nobody got it or had it removed. -/
theorem note_is_lost_to_a_head :
    replay counted.serve [.request posting, .request (asking .head)] opened =
        some ([posts, asks .head], (asked .head).2) ∧
      counted.FreshNames [posts, asks .head] ∧ counted.left? posts = some (firstId, note) ∧
      note.oneTime = true ∧ Turn.elapsed [asks .head] < Deposit.lifespan note ∧
      counted.Hides firstId (asked .head).2 ∧
      [posts, asks .head].countP (counted.hands firstId note) = 0 := by
  have missed : (counted.service.retrieve firstId (asked .head).2).1 = .error .notFound := by
    decide +kernel
  exact ⟨replay_asking .head, freshNames_asking (by decide), left?_posts, rfl,
    by decide +kernel, hides_of_retrieve missed, by decide +kernel⟩

end Asking

end Api

end Http

end DeadDrop
