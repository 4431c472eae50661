import DeadDrop.Proofs.Http.Discretion

/-!
What a response discloses, seen against what the store answered while the request was served. A call
can go in seven ways, each with its answers of the store, and each settles the response: 404 stands
for a secret that is not there and for nothing else, a store that fails makes it 500, and the message
of a one-time secret is in it only if the store has deleted the secret before.
-/

namespace DeadDrop

open Store (Alike Report Watched watched veiled)

variable {State Other Seed : Type}

def Store.Report.fails : Report → Bool
  | put (.error _) | deleted (.error _) | purged (.error _) => true
  | got (.error error) | status (.error error) => !error.isNotFound
  | _ => false

section Backing

namespace Service

/-- The answers of the store, in order, and what the service makes of them. -/
inductive Backs : List Report → Event → Prop where
  | refused {secret : Secret} (violation : Policy.Violation) :
      Backs [] (.created secret (.error (.ofViolation violation)))
  | stored {secret : Secret} {id : SecretId} (answer : Except Store.Error Unit) :
      Backs [.put answer] (.created secret ((answer.mapError .store).map fun _ => id))
  | missed {id : SecretId} (error : Store.Error) :
      Backs [.got (.error error)] (.retrieved id (.error (.ofRead error)))
  | kept {id : SecretId} {secret : Secret} : secret.oneTime = false →
      Backs [.got (.ok secret)] (.retrieved id (.ok secret))
  | taken {id : SecretId} {secret : Secret} (answer : Except Store.Error Bool) :
      secret.oneTime = true → Backs [.got (.ok secret), .deleted answer]
        (.retrieved id ((answer.mapError .clear).map fun _ => secret))
  | deleted {id : SecretId} (answer : Except Store.Error Bool) :
      Backs [.deleted answer] (.deleted id (answer.mapError .delete))
  | inspected {id : SecretId} (answer : Except Store.Error Bool) :
      Backs [.status answer] (.inspected id (answer.mapError .ofRead))

def World.watched (world : World State Seed) : World (Watched State) Seed :=
  ⟨world.clock, ⟨world.state, []⟩, world.seed⟩

variable (service : Service State Seed) (world : World State Seed)

def watching : Service (Watched State) Seed := service.upon (watched service.store)

theorem backs_create (secret : Secret) :
    Backs (service.watching.create secret world.watched).2.state.log
      (.created secret (service.watching.create secret world.watched).1) := by
  cases checked : service.policy.check secret with
  | error violation =>
      have checked' : service.watching.policy.check secret = .error violation := checked
      rw [create_refused checked']
      exact .refused violation
  | ok admitted =>
      have checked' : service.watching.policy.check secret = .ok admitted := checked
      simp only [create, checked']
      exact .stored _

theorem watching_get {id : SecretId} {answer : Except Store.Error Secret} {left : State}
    (got : service.store.get world.clock id world.state = (answer, left)) :
    service.watching.store.get world.watched.clock id world.watched.state =
      (answer, ⟨left, [.got answer]⟩) := by
  have noted : service.watching.store.get world.watched.clock id world.watched.state =
      Watched.note ⟨world.state, []⟩ .got (service.store.get world.clock id world.state) := rfl
  rw [noted, got]
  rfl

theorem watching_delete {id : SecretId} {answer : Except Store.Error Bool} {left after : State}
    (gone : service.store.delete world.clock id left = (answer, after)) (log : List Report) :
    service.watching.store.delete world.watched.clock id ⟨left, log⟩ =
      (answer, ⟨after, log ++ [.deleted answer]⟩) := by
  have noted : service.watching.store.delete world.watched.clock id ⟨left, log⟩ =
      Watched.note ⟨left, log⟩ .deleted (service.store.delete world.clock id left) := rfl
  rw [noted, gone]
  rfl

theorem backs_retrieve (id : SecretId) :
    Backs (service.watching.retrieve id world.watched).2.state.log
      (.retrieved id (service.watching.retrieve id world.watched).1) := by
  rcases got : service.store.get world.clock id world.state with ⟨error | secret, left⟩
  · rw [retrieve_missed (service.watching_get world got)]
    exact .missed error
  · rcases gone : service.store.delete world.clock id left with ⟨answer, after⟩
    rw [retrieve_found (service.watching_get world got) (service.watching_delete world gone _)]
    cases once : secret.oneTime with
    | false => exact .kept once
    | true => exact .taken answer once

end Service

end Backing

section Serving

namespace Http

open Service (Backs World Twins)

namespace Api

variable (api : Api State Seed) (request : Request) (world : World State Seed)

/-- What the store answers while a request is served. -/
def consulted : List Report :=
  ((api.upon (watched api.service.store)).handle request world.watched).2.state.log

theorem handle_watched :
    ((api.upon (watched api.service.store)).handle request world.watched).1 =
      (api.handle request world).1 := by
  have twins : Twins api.service.store (watched api.service.store) world world.watched :=
    ⟨rfl, rfl, Store.alike_watched _ _ _⟩
  exact (api.agree_handle twins request).response.symm

/-- The store is not asked, or what it answers is behind the event that the response tells. -/
theorem consulted_backs :
    (api.call? request = none ∧ api.consulted request world = []) ∨
      ∃ event, Backs (api.consulted request world) event ∧
        (api.handle request world).1 = dress api.settings request.method (respond event) := by
  -- The response is that over the watched store, and so are the call and its event.
  have unseen := api.handle_watched request world
  have calls : (api.upon (watched api.service.store)).call? request = api.call? request := rfl
  obtain ⟨response, next, ends, handled⟩ :=
    (api.upon (watched api.service.store)).handle_ends request world.watched
  rw [consulted, ← unseen, handled]
  rw [calls] at ends
  cases asked : api.call? request with
  | none =>
      rw [asked] at ends
      cases ends
      exact .inl ⟨rfl, rfl⟩
  | some call =>
      rw [asked] at ends
      obtain ⟨event, rfl, performed⟩ := ends_of_call ends
      refine .inr ⟨event, ?_, rfl⟩
      cases asks_of_call? asked with
      | create _ _ _ =>
          cases performed
          exact api.service.backs_create world _
      | retrieve _ _ =>
          cases performed
          exact api.service.backs_retrieve world _
      | delete _ _ =>
          cases performed
          exact .deleted _
      | status _ _ =>
          cases performed
          exact .inspected _

end Api

section Answers

variable {log : List Report} {event : Service.Event}

theorem status_of_blame {error : Service.Error} (blamed : error.blamesStore = true) :
    (Error.ofService error).response.status = 500 := by
  cases error with
  | store cause | clear cause | retrieve cause | delete cause => cases cause <;> rfl
  | refused refusal | notFound | misconfigured fault => cases blamed

theorem status_ofRead {cause : Store.Error} (failed : cause.isNotFound = false) :
    (Error.ofService (.ofRead cause)).response.status = 500 :=
  status_of_blame (Service.ofRead_blamesStore cause failed)

theorem status_of_fails (backs : Backs log event) {report : Report} (member : report ∈ log)
    (fails : report.fails = true) : (Api.respond event).status = 500 := by
  cases backs with
  | refused violation => cases member
  | stored answer =>
      cases List.mem_singleton.mp member
      cases answer with
      | ok done => cases fails
      | error cause => exact status_of_blame rfl
  | missed error =>
      cases List.mem_singleton.mp member
      exact status_ofRead (Bool.not_eq_true' _ ▸ fails)
  | kept many =>
      cases List.mem_singleton.mp member
      cases fails
  | taken answer once =>
      cases answer with
      | ok existed =>
          rcases List.mem_cons.mp member with rfl | later
          · cases fails
          · cases List.mem_singleton.mp later
            cases fails
      | error cause => exact status_of_blame rfl
  | deleted answer =>
      cases List.mem_singleton.mp member
      cases answer with
      | ok existed => cases fails
      | error cause => exact status_of_blame rfl
  | inspected answer =>
      cases List.mem_singleton.mp member
      cases answer with
      | ok oneTime => cases fails
      | error cause => exact status_ofRead (Bool.not_eq_true' _ ▸ fails)

/-- What the store says of a secret that is not there. -/
def Absent (log : List Report) : Prop :=
  log = [.got (.error .notFound)] ∨ log = [.status (.error .notFound)] ∨
    log = [.deleted (.ok false)]

theorem status_of_absent (backs : Backs log event) (absent : Absent log) :
    (Api.respond event).status = 404 := by
  rcases absent with rfl | rfl | rfl <;> cases backs <;> rfl

theorem absent_of_status (backs : Backs log event) (missing : (Api.respond event).status = 404) :
    Absent log := by
  -- A failure would have been told as such, so the store has answered.
  have working : ∀ report ∈ log, report.fails = false := by
    intro report member
    by_contra failed
    rw [status_of_fails backs member (Bool.not_eq_false _ ▸ failed)] at missing
    cases missing
  cases backs with
  | refused violation => cases violation <;> cases missing
  | stored answer =>
      cases answer with
      | ok done => cases missing
      | error cause => cases working _ List.mem_cons_self
  | missed error =>
      cases error with
      | notFound => exact .inl rfl
      | _ => cases working _ List.mem_cons_self
  | kept many => cases missing
  | taken answer once =>
      cases answer with
      | ok existed => cases missing
      | error cause => cases working _ (List.mem_cons_of_mem _ List.mem_cons_self)
  | deleted answer =>
      cases answer with
      | ok existed =>
          cases existed with
          | true => cases missing
          | false => exact .inr (.inr rfl)
      | error cause => cases working _ List.mem_cons_self
  | inspected answer =>
      cases answer with
      | ok oneTime => cases missing
      | error cause =>
          cases cause with
          | notFound => exact .inr (.inl rfl)
          | _ => cases working _ List.mem_cons_self

def Bare (text : String) : Prop := ∀ secret : Secret, secret.oneTime = true → text ≠ secret.encode

theorem bare_notice (message : String) : Bare (Exchange.Notice.encode ⟨message⟩) := by
  intro secret once same
  have alike : (Secret.mk 0 message false).encode = secret.encode := same
  rw [← Secret.encode_injective alike] at once
  cases once

theorem bare_status (oneTime : Bool) : Bare (Exchange.Status.encode ⟨oneTime⟩) := by
  intro secret _
  have found : (Exchange.Status.encode ⟨oneTime⟩).toList[2]? = some 'o' := by
    rw [Exchange.Status.encode, String.toList_ofList]
    exact Json.getElem?_writeRecord (by decide) _ _
  exact Secret.ne_encode found (by decide) (by decide) secret

theorem bare_advertised (advertised : Exchange.Advertised) : Bare advertised.encode := by
  intro secret _
  have found : advertised.encode.toList[2]? = some 'D' := by
    rw [Exchange.Advertised.encode, String.toList_ofList]
    exact Json.getElem?_writeRecord (by decide) _ _
  exact Secret.ne_encode found (by decide) (by decide) secret

theorem bare_of_none {text : String} (short : text.toList[2]? = none) : Bare text :=
  fun secret _ => Secret.ne_encode short nofun nofun secret

theorem bare_empty : Bare "" := bare_of_none (by decide)

theorem bare_ok : Bare "ok" := bare_of_none (by decide)

theorem bare_badSegment : Bare badSegment.body := by
  intro secret _
  have found : badSegment.body.toList[2]? = some 'v' := by decide
  exact Secret.ne_encode found (by decide) (by decide) secret

/-- The record of a one-time secret is sent only after the store has deleted the secret. -/
theorem taken_of_body (backs : Backs log event) {secret : Secret} (once : secret.oneTime = true)
    (body : (Api.respond event).body = secret.encode) :
    ∃ existed, log = [.got (.ok secret), .deleted (.ok existed)] := by
  cases backs with
  | refused violation => exact absurd body (bare_notice _ secret once)
  | stored answer => cases answer <;> exact absurd body (bare_notice _ secret once)
  | missed error => exact absurd body (bare_notice _ secret once)
  | @kept _ given many =>
      have same : given = secret := Secret.encode_injective body
      rw [same, once] at many
      cases many
  | @taken _ given answer _ =>
      cases answer with
      | error cause => exact absurd body (bare_notice _ secret once)
      | ok existed =>
          have same : given = secret := Secret.encode_injective body
          subst same
          exact ⟨existed, rfl⟩
  | deleted answer =>
      cases answer with
      | error cause => exact absurd body (bare_notice _ secret once)
      | ok existed =>
          cases existed with
          | true => exact absurd body (bare_empty secret once)
          | false => exact absurd body (bare_notice _ secret once)
  | inspected answer =>
      cases answer with
      | error cause => exact absurd body (bare_notice _ secret once)
      | ok oneTime => exact absurd body (bare_status oneTime secret once)

end Answers

section Idle

namespace Api

variable {api : Api State Seed} {request : Request}

theorem bare_withId {segment : List Char} {step : SecretId → Step State Seed}
    (nameless : idOf? segment = none) (world : World State Seed) :
    Bare (withId segment step world).1.body := by
  rw [withId_eq, nameless]
  cases (segmentText? segment).isSome with
  | true => exact bare_notice _
  | false => exact bare_badSegment

theorem bare_run {route : Route} {method : Method}
    (silent : api.routed? request route method = none) (world : World State Seed) :
    Bare (api.run request route method world).1.body := by
  cases route with
  | drop =>
      cases method with
      | post =>
          rw [routed?] at silent
          unfold run create
          cases given : readSecret api.service.policy request with
          | error error => exact bare_notice _
          | ok secret =>
              rw [given] at silent
              cases silent
      | _ => exact bare_empty
  | secret segment =>
      cases method with
      | get | head | delete => exact bare_withId (Option.map_eq_none_iff.mp silent) world
      | _ => exact bare_empty
  | status segment =>
      cases method with
      | get | head => exact bare_withId (Option.map_eq_none_iff.mp silent) world
      | _ => exact bare_empty
  | settings =>
      cases method with
      | get | head => exact bare_advertised _
      | _ => exact bare_empty
  | health =>
      cases method with
      | get | head => exact bare_ok
      | _ => exact bare_empty

theorem bare_dress (settings : Settings) (method : Method) {response : Response}
    (bare : Bare response.body) : Bare (dress settings method response).body := by
  unfold dress
  dsimp only
  by_cases head : method = .head
  · rw [if_pos head]
    exact bare_empty
  · rw [if_neg head]
    exact bare

theorem bare_of_silent (silent : api.call? request = none) (world : World State Seed) :
    Bare (api.handle request world).1.body := by
  unfold call? at silent
  unfold handle
  dsimp only
  apply bare_dress
  by_cases asks : request.method = .options
  · rw [if_pos asks]
    exact bare_empty
  · rw [if_neg asks]
    cases found : api.route? request with
    | none => exact bare_notice _
    | some route =>
        rw [found, Option.bind_some] at silent
        exact bare_run silent world

end Api

end Idle

section Veils

/-- Changes one-time secrets only, and leaves them one-time secrets. -/
structure Veils (veil : Secret → Secret) : Prop where
  once : ∀ secret, (veil secret).oneTime = secret.oneTime
  others : ∀ secret, secret.oneTime = false → veil secret = secret

variable {veil : Secret → Secret}

/-- The store has given out a one-time secret and deleted it. -/
def Api.Taken (api : Api State Seed) (request : Request) (world : World State Seed) : Prop :=
  ∃ secret existed, secret.oneTime = true ∧
    api.consulted request world = [.got (.ok secret), .deleted (.ok existed)]

theorem retrieve_veiled (veils : Veils veil) (service : Service State Seed) (id : SecretId)
    (world : World State Seed) :
    (service.upon (veiled veil service.store)).retrieve id world = service.retrieve id world ∨
      ∃ secret left existed after, secret.oneTime = true ∧
        service.store.get world.clock id world.state = (.ok secret, left) ∧
        service.store.delete world.clock id left = (.ok existed, after) := by
  have veiledGet : (service.upon (veiled veil service.store)).store.get world.clock id world.state =
      ((service.store.get world.clock id world.state).1.map veil,
        (service.store.get world.clock id world.state).2) := rfl
  rcases got : service.store.get world.clock id world.state with ⟨error | secret, left⟩
  · rw [got] at veiledGet
    left
    rw [Service.retrieve_missed got]
    exact Service.retrieve_missed veiledGet
  · rw [got] at veiledGet
    rcases gone : service.store.delete world.clock id left with ⟨answer, after⟩
    have veiledGone : (service.upon (veiled veil service.store)).store.delete world.clock id left =
        (answer, after) := gone
    have seen : (service.upon (veiled veil service.store)).retrieve id world = _ :=
      Service.retrieve_found veiledGet veiledGone
    rw [seen, Service.retrieve_found got gone, veils.once]
    cases once : secret.oneTime with
    | false => exact .inl (by rw [veils.others secret once])
    | true =>
        cases answer with
        | error cause => exact .inl rfl
        | ok existed => exact .inr ⟨secret, left, existed, after, once, rfl, gone⟩

namespace Api

variable (api : Api State Seed) (request : Request) (world : World State Seed)

theorem withId_congr {segment : List Char} {step other : SecretId → Step State Seed}
    (same : ∀ id, idOf? segment = some id → step id world = other id world) :
    withId segment step world = withId segment other world := by
  rw [withId_eq, withId_eq]
  cases named : idOf? segment with
  | none => rfl
  | some id => exact same id named

theorem run_veiled {route : Route} {method : Method}
    (unread : ∀ segment id, route = .secret segment → method = .get ∨ method = .head →
      idOf? segment = some id →
      (api.service.upon (veiled veil api.service.store)).retrieve id world =
        api.service.retrieve id world) :
    (api.upon (veiled veil api.service.store)).run request route method world =
      api.run request route method world := by
  cases route with
  | secret segment =>
      have reading (reads : method = .get ∨ method = .head) :
          withId segment (api.upon (veiled veil api.service.store)).read world =
            withId segment api.read world := by
        apply withId_congr
        intro id named
        have same : (api.upon (veiled veil api.service.store)).service.retrieve id world =
            api.service.retrieve id world := unread segment id rfl reads named
        rw [read, read, answer_eq, answer_eq, same]
      cases method with
      | get => exact reading (.inl rfl)
      | head => exact reading (.inr rfl)
      | _ => rfl
  -- No other route gets a secret from the store.
  | _ => cases method <;> rfl

theorem handle_veiled
    (unread : ∀ id, request.method = .get ∨ request.method = .head →
      api.named? request = some id →
      (api.service.upon (veiled veil api.service.store)).retrieve id world =
        api.service.retrieve id world) :
    (api.upon (veiled veil api.service.store)).handle request world =
      api.handle request world := by
  have routes : (api.upon (veiled veil api.service.store)).route? request =
      api.route? request := rfl
  have settings : (api.upon (veiled veil api.service.store)).settings = api.settings := rfl
  unfold handle
  rw [routes, settings]
  by_cases asks : request.method = .options
  · simp only [if_pos asks]
  · simp only [if_neg asks]
    cases found : api.route? request with
    | none => rfl
    | some route =>
        dsimp only
        rw [run_veiled]
        rintro segment id rfl reads named
        exact unread id reads ((named?_of_secret found).trans named)

theorem consulted_reading {id : SecretId} {secret : Secret} {left after : State}
    {answer : Except Store.Error Bool}
    (reads : request.method = .get ∨ request.method = .head)
    (named : api.named? request = some id) (once : secret.oneTime = true)
    (got : api.service.store.get world.clock id world.state = (.ok secret, left))
    (gone : api.service.store.delete world.clock id left = (answer, after)) :
    api.consulted request world = [.got (.ok secret), .deleted answer] := by
  have called : (api.upon (watched api.service.store)).call? request = some (.retrieve id) :=
    call?_of_reading reads named
  obtain ⟨event, next, performed, handled⟩ : ∃ event next,
      api.service.watching.perform (.retrieve id) world.watched = some (event, next) ∧
        (api.upon (watched api.service.store)).handle request world.watched =
          (dress api.settings request.method (respond event), next) := handle_call called
  have retrieved : (Service.Event.retrieved id
      (api.service.watching.retrieve id world.watched).1,
      (api.service.watching.retrieve id world.watched).2) = (event, next) :=
    Option.some.inj performed
  obtain ⟨-, ends⟩ := Prod.mk.inj retrieved
  have found : api.service.watching.retrieve id world.watched = _ :=
    Service.retrieve_found (api.service.watching_get world got)
      (api.service.watching_delete world gone _)
  rw [consulted, handled, ← ends, found, if_pos once]
  rfl

/-- Nobody can tell what a one-time secret says, unless it is taken. -/
theorem handle_unread (veils : Veils veil) :
    api.Taken request world ∨
      (api.upon (veiled veil api.service.store)).handle request world =
        api.handle request world := by
  by_cases taken : api.Taken request world
  · exact .inl taken
  · right
    apply handle_veiled
    intro id reads named
    rcases retrieve_veiled veils api.service id world with same | shown
    · exact same
    · obtain ⟨secret, left, existed, after, once, got, gone⟩ := shown
      exact absurd ⟨secret, existed, once,
        api.consulted_reading request world reads named once got gone⟩ taken

end Api

end Veils

section Requests

namespace Api

variable (api : Api State Seed) (request : Request) (world : World State Seed)

theorem missing_iff_absent :
    (api.handle request world).1.status = 404 ∧ api.consulted request world ≠ [] ↔
      Absent (api.consulted request world) := by
  rcases api.consulted_backs request world with ⟨-, idle⟩ | ⟨event, backs, answered⟩
  · rw [idle]
    constructor
    · rintro ⟨-, asked⟩
      exact absurd rfl asked
    · rintro (absent | absent | absent) <;> cases absent
  · have status : (api.handle request world).1.status = (respond event).status := by
      rw [answered]
      rfl
    rw [status]
    constructor
    · rintro ⟨missing, -⟩
      exact absent_of_status backs missing
    · intro absent
      refine ⟨status_of_absent backs absent, ?_⟩
      intro idle
      rw [idle] at absent
      rcases absent with absent | absent | absent <;> cases absent

theorem status_of_failure {report : Report} (member : report ∈ api.consulted request world)
    (fails : report.fails = true) : (api.handle request world).1.status = 500 := by
  rcases api.consulted_backs request world with ⟨-, idle⟩ | ⟨event, backs, answered⟩
  · rw [idle] at member
    cases member
  · rw [answered]
    exact status_of_fails backs member fails

theorem taken_of_handed {secret : Secret} (once : secret.oneTime = true)
    (body : (api.handle request world).1.body = secret.encode) :
    ∃ existed, api.consulted request world = [.got (.ok secret), .deleted (.ok existed)] := by
  rcases api.consulted_backs request world with ⟨silent, -⟩ | ⟨event, backs, answered⟩
  · exact absurd body (bare_of_silent silent world secret once)
  · rw [answered, dress] at body
    dsimp only at body
    by_cases head : request.method = .head
    · rw [if_pos head] at body
      exact absurd body (bare_empty secret once)
    · rw [if_neg head] at body
      exact taken_of_body backs once body

end Api

end Requests

/-- Servers over stores that are alike respond alike to the last header, to any number of requests
at any times. And to each request: 404 is the answer, where the store was asked at all, if and only
if it said that there was nothing; a failure of the store is answered 500; and a one-time secret is
sent only once the store has said of it, in this request, that it is deleted. Until then nothing in
the response depends on its message. -/
theorem Api.store_stays_behind (api : Api State Seed) (right : Store Other) :
    (∀ state other, Alike api.service.store right state other → ∀ clock seed inputs,
      (replay api.serve inputs ⟨clock, state, seed⟩).map Prod.fst =
        (replay (api.upon right).serve inputs ⟨clock, other, seed⟩).map Prod.fst) ∧
    ∀ request world,
      ((api.handle request world).1.status = 404 ∧ api.consulted request world ≠ [] ↔
        Absent (api.consulted request world)) ∧
      (∀ report ∈ api.consulted request world, report.fails = true →
        (api.handle request world).1.status = 500) ∧
      (∀ secret, secret.oneTime = true → (api.handle request world).1.body = secret.encode →
        ∃ existed, api.consulted request world = [.got (.ok secret), .deleted (.ok existed)]) ∧
      ∀ veil, Veils veil → api.Taken request world ∨
        (api.upon (veiled veil api.service.store)).handle request world =
          api.handle request world := by
  constructor
  · intro state other alike clock seed inputs
    have twins : Twins api.service.store right ⟨clock, state, seed⟩ ⟨clock, other, seed⟩ :=
      ⟨rfl, rfl, alike⟩
    exact api.replay_upon twins inputs
  · intro request world
    refine ⟨api.missing_iff_absent request world, ?_, ?_, ?_⟩
    · intro report member fails
      exact api.status_of_failure request world member fails
    · intro secret once body
      exact api.taken_of_handed request world once body
    · intro veil veils
      exact api.handle_unread request world veils

section Failing

open Service (countedIds note firstId)

namespace Api

def stuck (words : String) (number : Int32) : Store Unit where
  get _ _ state := (.ok note, state)
  put _ _ _ state := (.error (.lifetime number), state)
  delete _ _ state := (.error (.io words), state)
  status _ _ state := (.error (.record words), state)
  purge _ state := (.error (.io words), state)

theorem alike_stuck (words other : String) (number limit : Int32) :
    Alike (stuck words number) (stuck other limit) () () := by
  refine Store.alike_of_related (fun _ _ => True) ?_ trivial
  rintro clock query state left -
  cases query <;> exact ⟨rfl, trivial⟩

def stalled (words : String) (number : Int32) : Api Unit Nat :=
  ⟨⟨stuck words number, countedIds, .standard⟩, .standard⟩

def blank (secret : Secret) : Secret :=
  if secret.oneTime then { secret with message := "" } else secret

theorem veils_blank : Veils blank := by
  constructor
  · intro secret
    unfold blank
    by_cases once : secret.oneTime = true
    · rw [if_pos once]
    · rw [if_neg once]
  · intro secret many
    rw [blank, many]
    rfl

/-- Neither what the disk said nor what the note says gets out, and the note does where it is
deleted. -/
theorem note_stays_behind :
    (replay (stalled "disk full" 7).serve [.request (asking .get), .request posting]
        ⟨.start 0, (), 0⟩).map Prod.fst =
      (replay (stalled "no such table" 9).serve [.request (asking .get), .request posting]
        ⟨.start 0, (), 0⟩).map Prod.fst ∧
    ((stalled "disk full" 7).handle (asking .get) ⟨.start 0, (), 0⟩).1.status = 500 ∧
    (∃ existed, counted.consulted (asking .get) posted.2 =
      [.got (.ok note), .deleted (.ok existed)]) ∧
    ((stalled "disk full" 7).upon (veiled blank (stuck "disk full" 7))).handle (asking .get)
        ⟨.start 0, (), 0⟩ =
      (stalled "disk full" 7).handle (asking .get) ⟨.start 0, (), 0⟩ := by
  obtain ⟨together, apart⟩ := (stalled "disk full" 7).store_stays_behind (stuck "no such table" 9)
  obtain ⟨-, failed, -, unread⟩ := apart (asking .get) ⟨.start 0, (), 0⟩
  obtain ⟨-, kept⟩ := counted.store_stays_behind (stuck "disk full" 7)
  obtain ⟨-, -, sent, -⟩ := kept (asking .get) posted.2
  have named : (stalled "disk full" 7).named? (asking .get) = some firstId := by decide +kernel
  have noted := (stalled "disk full" 7).consulted_reading (asking .get) ⟨.start 0, (), 0⟩
    (.inl rfl) named rfl rfl rfl
  refine ⟨together () () (alike_stuck _ _ _ _) _ _ _, ?_, ?_, ?_⟩
  · apply failed (.deleted (.error (.io "disk full")))
    · rw [noted]
      exact List.mem_cons_of_mem _ List.mem_cons_self
    · rfl
  · exact sent note rfl (by decide +kernel)
  · rcases unread blank veils_blank with taken | same
    · obtain ⟨secret, existed, -, cleared⟩ := taken
      rw [noted] at cleared
      cases cleared
    · exact same

end Api

end Failing

end Http

end Serving

end DeadDrop
