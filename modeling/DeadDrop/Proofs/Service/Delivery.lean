import DeadDrop.Proofs.Replay
import DeadDrop.Proofs.Service.Calls

/-!
What a history of calls tells about the store behind the service, whatever failed on the way. The
answers alone keep a book: a created secret is stored, a read one-time secret is seen and then
removed, a failure tells nothing. The book that follows from the answers and the store agree after
every call, so a one-time secret is handed out at most once, and it waits as long as nobody took
it and its time has not run out.
-/

namespace DeadDrop

open Store (Ledger Deposit Book Sighting Keeps Memory Faulty)
open Store (memory faulty memory_keeps faulty_keeps)

namespace Service

namespace Event

/-- What an answer tells about the store. -/
def sightings : Event → List Sighting
  | created secret (.ok id) => [.stored id secret]
  | retrieved id (.ok secret) =>
      if secret.oneTime then [.seen id secret, .removed id true] else [.seen id secret]
  | retrieved id (.error .notFound) => [.missed id]
  | deleted id (.ok existed) => [.removed id existed]
  | inspected id (.error .notFound) => [.missed id]
  | waited nanoseconds => [.passed nanoseconds]
  | _ => []

def createdId? : Event → Option SecretId
  | created _ (.ok id) => some id
  | _ => none

def delivers (id : SecretId) : Event → Bool
  | retrieved other (.ok _) => other = id
  | _ => false

/-- Whether somebody got a one-time secret, or was told that a secret was there to delete. -/
def takes (id : SecretId) : Event → Bool
  | retrieved other (.ok secret) => other = id && secret.oneTime
  | deleted other (.ok existed) => other = id && existed
  | _ => false

def span : Event → Nat
  | waited nanoseconds => nanoseconds
  | _ => 0

theorem sightings_of_blamesStore {error : Error} (blamed : error.blamesStore = true)
    (id : SecretId) :
    (retrieved id (.error error)).sightings = [] ∧
      (inspected id (.error error)).sightings = [] := by
  cases error with
  | notFound => cases blamed
  | _ => exact ⟨rfl, rfl⟩

-- Only a creation stores, and it stores one secret.
theorem sightings_cases (event : Event) :
    (∃ secret id, event = created secret (.ok id)) ∨
      ∀ id secret, .stored id secret ∉ event.sightings := by
  unfold sightings
  split
  · next secret id => exact Or.inl ⟨secret, id, rfl⟩
  · split <;> exact Or.inr fun id secret => by simp
  all_goals exact Or.inr fun id secret => by simp

theorem stored_mem_sightings {event : Event} {id : SecretId} {secret : Secret} :
    .stored id secret ∈ event.sightings ↔ event = created secret (.ok id) := by
  constructor
  · intro stored
    rcases sightings_cases event with ⟨secret', id', rfl⟩ | never
    · have same : Sighting.stored id secret = .stored id' secret' := List.mem_singleton.mp stored
      cases same
      rfl
    · exact absurd stored (never id secret)
  · rintro rfl
    exact List.mem_singleton.mpr rfl

theorem createdId?_eq_none {event : Event}
    (plain : ∀ secret id, event ≠ created secret (.ok id)) : event.createdId? = none := by
  unfold createdId?
  split
  · next secret id => exact absurd rfl (plain secret id)
  · rfl

theorem storedIds_sightings (event : Event) :
    event.sightings.filterMap Sighting.storedId? = event.createdId?.toList := by
  rcases sightings_cases event with ⟨secret, id, rfl⟩ | never
  · rfl
  · have plain (secret : Secret) (id : SecretId) : event ≠ created secret (.ok id) := by
      rintro rfl
      exact never id secret List.mem_cons_self
    rw [createdId?_eq_none plain]
    apply List.filterMap_eq_nil_iff.mpr
    intro sighting member
    cases sighting with
    | stored id secret => exact absurd member (never id secret)
    | _ => rfl

theorem takes_of_removed {event : Event} {id : SecretId}
    (removed : .removed id true ∈ event.sightings) : event.takes id = true := by
  unfold sightings at removed
  split at removed
  · cases List.mem_singleton.mp removed
  · split at removed
    · next once =>
        rcases List.mem_cons.mp removed with same | same
        · cases same
        · cases List.mem_singleton.mp same
          simp [takes, once]
    · cases List.mem_singleton.mp removed
  · cases List.mem_singleton.mp removed
  · cases List.mem_singleton.mp removed
    simp [takes]
  · cases List.mem_singleton.mp removed
  · cases List.mem_singleton.mp removed
  · cases removed

theorem elapsed_sightings (event : Event) : Sighting.elapsed event.sightings = event.span := by
  unfold sightings
  split
  · rfl
  · split <;> rfl
  · rfl
  · rfl
  · rfl
  · rfl
  · next silent => cases event with
    | waited nanoseconds => exact absurd rfl (silent nanoseconds)
    | _ => rfl

end Event

def elapsed (history : List Event) : Nat := (history.map Event.span).sum

def FreshIds (history : List Event) : Prop := (history.filterMap Event.createdId?).Nodup

/-- The secret was left under the id and waits there: nobody took it since, and its time has not
run out. -/
def Outstanding (id : SecretId) (secret : Secret) (history : List Event) : Prop :=
  ∃ before later, history = before ++ .created secret (.ok id) :: later ∧
    (∀ event ∈ later, event.takes id = false) ∧ elapsed later < Deposit.lifespan secret

variable {State Seed : Type}

/-- The world shows what its book says. -/
structure Tracks (shows : Nat → State → Ledger → Prop) (world : World State Seed)
    (book : Book) : Prop where
  time : world.clock.elapsed = book.now
  shown : shows book.now world.state book.ledger

section Steps

variable {fallible : Prop} {shows : Nat → State → Ledger → Prop} {service : Service State Seed}
  {world next : World State Seed} {book : Book}

/-- What was told is true of the book, and the book it leads to is that of the next world. -/
def Told (shows : Nat → State → Ledger → Prop) (book : Book) (sightings : List Sighting)
    (next : World State Seed) : Prop :=
  book.Explains sightings ∧ Tracks shows next (book.after sightings)

theorem Told.append {before later : List Sighting} (past : Told shows book before world)
    (step : Told shows (book.after before) later next) :
    Told shows book (before ++ later) next := by
  rw [Told, Book.explains_append, Book.after_append]
  exact ⟨⟨past.1, step.1⟩, step.2⟩

theorem told_of_silent {sightings : List Sighting} (silent : sightings = [])
    (tracks : Tracks shows next book) : Told shows book sightings next := by
  rw [Told, silent]
  exact ⟨trivial, tracks⟩

theorem create_told (keeps : Keeps service.store fallible shows) (secret : Secret)
    (tracks : Tracks shows world book) :
    Told shows book (Event.created secret (service.create secret world).1).sightings
      (service.create secret world).2 := by
  obtain ⟨now, ledger⟩ := book
  obtain ⟨rfl, shown⟩ := tracks
  cases judged : service.policy.check secret with
  | error violation =>
      rw [create_refused judged]
      exact told_of_silent rfl ⟨rfl, shown⟩
  | ok admitted =>
      have settled := create_settles keeps judged shown
      generalize service.create secret world = reply at settled
      cases settled with
      | answered kept => exact ⟨⟨trivial, trivial⟩, rfl, kept⟩
      | failed fails blamed kept => exact told_of_silent rfl ⟨rfl, kept⟩

theorem retrieve_told (keeps : Keeps service.store fallible shows) (id : SecretId)
    (tracks : Tracks shows world book) :
    Told shows book (Event.retrieved id (service.retrieve id world).1).sightings
      (service.retrieve id world).2 := by
  obtain ⟨now, ledger⟩ := book
  obtain ⟨rfl, shown⟩ := tracks
  have settled := retrieve_settles keeps id shown
  generalize service.retrieve id world = reply at settled
  cases settled with
  | failed fails blamed kept =>
      exact told_of_silent (Event.sightings_of_blamesStore blamed id).1 ⟨rfl, kept⟩
  | @answered left kept =>
      unfold Ledger.reading
      unfold Ledger.afterReading at kept
      cases live : ledger.live world.clock.elapsed id with
      | none =>
          rw [live] at kept
          exact ⟨⟨live, trivial⟩, rfl, kept⟩
      | some deposit =>
          rw [live] at kept
          have borne : (Book.mk world.clock.elapsed ledger).Bears (.seen id deposit.secret) :=
            congrArg (Option.map Deposit.secret) live
          by_cases once : deposit.secret.oneTime = true
          · have existed : true = (ledger.live world.clock.elapsed id).isSome := by rw [live]; rfl
            simp only [once, if_true] at kept
            simp only [Told, Event.sightings, once, if_true]
            exact ⟨⟨borne, existed, trivial⟩, rfl, kept⟩
          · simp only [once, Bool.false_eq_true, if_false] at kept
            simp only [Told, Event.sightings, once, Bool.false_eq_true, if_false]
            exact ⟨⟨borne, trivial⟩, rfl, kept⟩

theorem delete_told (keeps : Keeps service.store fallible shows) (id : SecretId)
    (tracks : Tracks shows world book) :
    Told shows book (Event.deleted id (service.delete id world).1).sightings
      (service.delete id world).2 := by
  obtain ⟨now, ledger⟩ := book
  obtain ⟨rfl, shown⟩ := tracks
  have settled := delete_settles keeps id shown
  generalize service.delete id world = reply at settled
  cases settled with
  | answered kept => exact ⟨⟨rfl, trivial⟩, rfl, kept⟩
  | failed fails blamed kept => exact told_of_silent rfl ⟨rfl, kept⟩

theorem status_told (keeps : Keeps service.store fallible shows) (id : SecretId)
    (tracks : Tracks shows world book) :
    Told shows book (Event.inspected id (service.status id world).1).sightings
      (service.status id world).2 := by
  obtain ⟨now, ledger⟩ := book
  obtain ⟨rfl, shown⟩ := tracks
  have settled := status_settles keeps id shown
  generalize service.status id world = reply at settled
  cases settled with
  | failed fails blamed kept =>
      exact told_of_silent (Event.sightings_of_blamesStore blamed id).2 ⟨rfl, kept⟩
  | @answered left kept =>
      unfold Ledger.inspecting
      cases live : ledger.live world.clock.elapsed id with
      | none => exact ⟨⟨live, trivial⟩, rfl, kept⟩
      | some deposit => exact told_of_silent rfl ⟨rfl, kept⟩

theorem perform_told (keeps : Keeps service.store fallible shows) {call : Call} {event : Event}
    (tracks : Tracks shows world book)
    (performed : service.perform call world = some (event, next)) :
    Told shows book event.sightings next := by
  cases call with
  | create secret =>
      cases performed
      exact create_told keeps secret tracks
  | retrieve id =>
      cases performed
      exact retrieve_told keeps id tracks
  | delete id =>
      cases performed
      exact delete_told keeps id tracks
  | status id =>
      cases performed
      exact status_told keeps id tracks
  | purge =>
      obtain ⟨now, ledger⟩ := book
      obtain ⟨rfl, shown⟩ := tracks
      obtain ⟨reply, left, purged, kept⟩ := purge_settles keeps shown
      simp only [perform, purged] at performed
      cases performed
      exact told_of_silent rfl ⟨rfl, kept⟩
  | wait nanoseconds =>
      obtain ⟨now, ledger⟩ := book
      obtain ⟨rfl, shown⟩ := tracks
      simp only [perform, World.advance?, Option.map_map] at performed
      obtain ⟨clock, moved, same⟩ := Option.map_eq_some_iff.mp performed
      cases same
      have time := Clock.elapsed_of_advance? moved
      exact ⟨⟨trivial, trivial⟩, time, keeps.later shown (Nat.le_add_right _ _)⟩

end Steps

section Errors

variable {α : Type} {service : Service State Seed} {world : World State Seed} {id : SecretId}

theorem ofRead_error (cause : Store.Error) :
    Error.ofRead cause = .notFound ∨ (Error.ofRead cause).blamesStore = true := by
  cases cause with
  | notFound => exact Or.inl rfl
  | _ => exact Or.inr rfl

theorem error_of_ask {wrap : Store.Error → Error} {call : Clock → State → Store.Answer State α}
    {error : Error} (failed : (ask wrap call world).1 = .error error) :
    ∃ cause, error = wrap cause := by
  simp only [ask] at failed
  cases answer : (call world.clock world.state).1 with
  | ok value => simp [answer, Except.mapError] at failed
  | error cause =>
      simp only [answer, Except.mapError, Except.error.injEq] at failed
      exact ⟨cause, failed.symm⟩

theorem delete_error {error : Error} (failed : (service.delete id world).1 = .error error) :
    error.blamesStore = true := by
  obtain ⟨cause, rfl⟩ := error_of_ask failed
  rfl

theorem status_error {error : Error} (failed : (service.status id world).1 = .error error) :
    error = .notFound ∨ error.blamesStore = true := by
  obtain ⟨cause, rfl⟩ := error_of_ask failed
  exact ofRead_error cause

theorem retrieve_error {error : Error} (failed : (service.retrieve id world).1 = .error error) :
    error = .notFound ∨ error.blamesStore = true := by
  unfold retrieve at failed
  -- The error is that of the look or, for a one-time secret, that of the removal.
  cases looked : ask .ofRead (fun clock => service.store.get clock id) world with
  | mk answer middle =>
      cases answer with
      | error cause =>
          obtain ⟨known, rfl⟩ := error_of_ask (congrArg Prod.fst looked)
          rw [looked] at failed
          cases failed
          exact ofRead_error known
      | ok secret =>
          rw [looked] at failed
          by_cases once : secret.oneTime = true
          · simp only [once, if_true] at failed
            cases removed : (ask .clear (fun clock => service.store.delete clock id) middle).1 with
            | ok existed => simp [removed, Except.map] at failed
            | error cause =>
                obtain ⟨known, rfl⟩ := error_of_ask removed
                simp only [removed, Except.map, Except.error.injEq] at failed
                subst failed
                exact Or.inr rfl
          · simp [once] at failed

/-- A one-time secret is handed out only after its own removal has succeeded. -/
theorem deleted_of_retrieved {secret : Secret} {next : World State Seed}
    (delivered : service.retrieve id world = (.ok secret, next)) (once : secret.oneTime = true) :
    ∃ middle existed, service.store.get world.clock id world.state = (.ok secret, middle) ∧
      service.store.delete world.clock id middle = (.ok existed, next.state) := by
  unfold retrieve ask at delivered
  cases looked : service.store.get world.clock id world.state with
  | mk answer middle =>
      cases answer with
      | error cause => simp [looked, Except.mapError] at delivered
      | ok found =>
          simp only [looked, Except.mapError] at delivered
          cases removed : service.store.delete world.clock id middle with
          | mk answer last =>
              simp only [removed] at delivered
              split at delivered
              · cases answer with
                | error cause => simp [Except.map] at delivered
                | ok existed =>
                    cases delivered
                    exact ⟨middle, existed, rfl, removed⟩
              · next plain =>
                  cases delivered
                  exact absurd once plain

end Errors

section Histories

variable {fallible : Prop} {shows : Nat → State → Ledger → Prop} {service : Service State Seed}
  {start world : World State Seed} {calls : List Call} {history : List Event} {id : SecretId}
  {secret : Secret}

def reports (history : List Event) : List Sighting := history.flatMap Event.sightings

theorem replay_told (keeps : Keeps service.store fallible shows)
    (blank : shows start.clock.elapsed start.state .empty)
    (ran : replay service.perform calls start = some (history, world)) :
    Told shows (.opened start.clock.elapsed) (reports history) world := by
  let told (past : List Event) (reached : World State Seed) : Prop :=
    Told shows (.opened start.clock.elapsed) (reports past) reached
  have kept (past : List Event) (call : Call) (reached : World State Seed) (event : Event)
      (next : World State Seed) (before : told past reached)
      (performed : service.perform call reached = some (event, next)) :
      told (past ++ [event]) next := by
    have both : reports (past ++ [event]) = reports past ++ event.sightings := by simp [reports]
    simp only [told, both]
    exact before.append (perform_told keeps before.2 performed)
  exact replay_invariant kept calls [] start ⟨trivial, rfl, blank⟩ ran

theorem stored_mem_reports : .stored id secret ∈ reports history ↔
    .created secret (.ok id) ∈ history := by
  simp [reports, Event.stored_mem_sightings]

theorem reports_fresh (fresh : FreshIds history) : Sighting.Fresh (reports history) :=
  Sighting.fresh_flatMap Event.storedIds_sightings fresh

theorem elapsed_reports (history : List Event) :
    Sighting.elapsed (reports history) = elapsed history := by
  induction history with
  | nil => rfl
  | cons event rest ih =>
      have both : Sighting.elapsed (reports (event :: rest)) =
          Sighting.elapsed event.sightings + Sighting.elapsed (reports rest) := by
        simp [reports, Sighting.elapsed]
      rw [both, ih, Event.elapsed_sightings]
      simp [elapsed]

variable {now : Nat} {before later : List Event}

theorem created_of_delivered
    (explained : (Book.opened now).Explains
      (reports (before ++ .retrieved id (.ok secret) :: later))) :
    .created secret (.ok id) ∈ before := by
  have seen : ∃ rest, reports (before ++ .retrieved id (.ok secret) :: later) =
      reports before ++ .seen id secret :: rest := by
    by_cases once : secret.oneTime = true
    · exact ⟨.removed id true :: reports later, by simp [reports, Event.sightings, once]⟩
    · exact ⟨reports later, by simp [reports, Event.sightings, once]⟩
  obtain ⟨rest, rows⟩ := seen
  rw [rows] at explained
  exact stored_mem_reports.mp (Book.stored_of_seen explained)

theorem not_delivered_again
    (explained : (Book.opened now).Explains
      (reports (before ++ .retrieved id (.ok secret) :: later)))
    (fresh : FreshIds (before ++ .retrieved id (.ok secret) :: later))
    (once : secret.oneTime = true) : ∀ event ∈ later, event.delivers id = false := by
  intro event member
  have created := created_of_delivered explained
  have rows : reports (before ++ .retrieved id (.ok secret) :: later) =
      (reports before ++ [.seen id secret]) ++ .removed id true :: reports later := by
    simp [reports, Event.sightings, once]
  have fresh' := reports_fresh fresh
  rw [rows] at explained fresh'
  -- A delivery tells of the removal that came with it, and nothing is found after a removal.
  have unfound := Book.not_finds_after_removed explained fresh'
    (List.mem_append_left _ (stored_mem_reports.mpr created))
  cases event with
  | retrieved other reply =>
      cases reply with
      | error error => rfl
      | ok delivered =>
          have seen : .seen other delivered ∈ reports later := by
            apply List.mem_flatMap.mpr
            refine ⟨_, member, ?_⟩
            by_cases single : delivered.oneTime = true
            · simp [Event.sightings, single]
            · simp [Event.sightings, single]
          exact unfound _ seen
  | _ => rfl

/-- A one-time secret is delivered once at most, and unchanged. -/
theorem delivered_once (explained : (Book.opened now).Explains (reports history))
    (fresh : FreshIds history) (created : .created secret (.ok id) ∈ history)
    (once : secret.oneTime = true) :
    history.countP (Event.delivers id) ≤ 1 ∧
      ∀ delivered, .retrieved id (.ok delivered) ∈ history → delivered = secret := by
  have unchanged (delivered : Secret) (member : .retrieved id (.ok delivered) ∈ history) :
      delivered = secret := by
    obtain ⟨before, later, rfl⟩ := List.append_of_mem member
    have origin : .created delivered (.ok id) ∈ before ++ .retrieved id (.ok delivered) :: later :=
      List.mem_append_left _ (created_of_delivered explained)
    exact (reports_fresh fresh).secret_eq (stored_mem_reports.mpr origin)
      (stored_mem_reports.mpr created)
  refine ⟨countP_le_one ?_, unchanged⟩
  intro before event later split delivers
  cases event with
  | retrieved other reply =>
      cases reply with
      | error error => cases delivers
      | ok delivered =>
          have same : other = id := by simpa [Event.delivers] using delivers
          subst same
          have secret_eq := unchanged delivered (by rw [split]; simp)
          subst secret_eq
          rw [split] at explained fresh
          exact not_delivered_again explained fresh once
  | _ => cases delivers

theorem live_of_outstanding (explained : (Book.opened now).Explains (reports history))
    (fresh : FreshIds history) (outstanding : Outstanding id secret history) :
    (((Book.opened now).after (reports history)).live id).map Deposit.secret = some secret := by
  obtain ⟨before, later, rfl, untaken, young⟩ := outstanding
  have rows : reports (before ++ .created secret (.ok id) :: later) =
      reports before ++ .stored id secret :: reports later := by
    simp [reports, Event.sightings]
  have fresh' := reports_fresh fresh
  rw [rows] at explained fresh' ⊢
  refine Book.live_of_kept explained fresh' ?_ (by rw [elapsed_reports]; exact young)
  intro removed
  obtain ⟨event, member, told⟩ := List.mem_flatMap.mp removed
  have taken := Event.takes_of_removed told
  rw [untaken event member] at taken
  cases taken

end Histories

section Next

variable {fallible : Prop} {shows : Nat → State → Ledger → Prop} {service : Service State Seed}
  {world : World State Seed} {history : List Event} {id : SecretId} {secret : Secret} {now : Nat}

theorem not_outstanding_of_missed (explained : (Book.opened now).Explains (reports history))
    (fresh : FreshIds history)
    (missed : ((Book.opened now).after (reports history)).Bears (.missed id)) :
    ¬ Outstanding id secret history := by
  intro outstanding
  have alive := live_of_outstanding explained fresh outstanding
  rw [missed] at alive
  cases alive

/-- An error says that nothing is outstanding, or it blames the store. -/
theorem error_means (keeps : Keeps service.store fallible shows)
    (explained : (Book.opened now).Explains (reports history))
    (tracks : Tracks shows world ((Book.opened now).after (reports history)))
    (fresh : FreshIds history) {error : Error}
    (failed : (service.retrieve id world).1 = .error error ∨
      (service.status id world).1 = .error error) :
    (error = .notFound ∧ ∀ secret, ¬ Outstanding id secret history) ∨
      error.blamesStore = true := by
  rcases failed with retrieving | inspecting
  · rcases retrieve_error retrieving with rfl | blamed
    · have told := (retrieve_told keeps id tracks).1
      rw [retrieving] at told
      exact Or.inl ⟨rfl, fun _ => not_outstanding_of_missed explained fresh told.1⟩
    · exact Or.inr blamed
  · rcases status_error inspecting with rfl | blamed
    · have told := (status_told keeps id tracks).1
      rw [inspecting] at told
      exact Or.inl ⟨rfl, fun _ => not_outstanding_of_missed explained fresh told.1⟩
    · exact Or.inr blamed

end Next

/-- Failures injected anywhere never hand a one-time secret out twice, never lose a secret that
waits, and never pass for absence. -/
theorem faults_neither_repeat_nor_lose (rate : Rat) (policy : Policy) (ids : Random.Source Seed)
    (calls : List Call) (clock : Clock) (generator : Nat) (seed : Seed) (history : List Event)
    (world : World (Faulty Memory) Seed)
    (ran : replay (Service.perform ⟨faulty rate memory, ids, policy⟩) calls
      ⟨clock, Faulty.start generator Memory.empty, seed⟩ = some (history, world))
    (fresh : FreshIds history) :
    let service : Service (Faulty Memory) Seed := ⟨faulty rate memory, ids, policy⟩
    (∀ id secret, .created secret (.ok id) ∈ history → secret.oneTime = true →
      history.countP (Event.delivers id) ≤ 1 ∧
      (∀ delivered, .retrieved id (.ok delivered) ∈ history → delivered = secret) ∧
      (∀ next, service.retrieve id world = (.ok secret, next) →
        ∃ middle existed, service.store.get world.clock id world.state = (.ok secret, middle) ∧
          service.store.delete world.clock id middle = (.ok existed, next.state))) ∧
    (∀ id secret, Outstanding id secret history →
      (Memory.get world.clock id world.state.inner).1 = .ok secret) ∧
    (∀ id error, (service.retrieve id world).1 = .error error ∨
        (service.status id world).1 = .error error →
      (error = .notFound ∧ ∀ secret, ¬ Outstanding id secret history) ∨
        error.blamesStore = true) ∧
    (∀ id error, (service.delete id world).1 = .error error → error.blamesStore = true) := by
  intro service
  have keeps : Keeps service.store True (Faulty.Shows Memory.Mirrors) :=
    faulty_keeps rate memory_keeps
  let start : World (Faulty Memory) Seed := ⟨clock, Faulty.start generator Memory.empty, seed⟩
  have blank : Faulty.Shows Memory.Mirrors start.clock.elapsed start.state .empty :=
    Memory.Mirrors.empty clock.elapsed
  obtain ⟨explained, tracks⟩ := replay_told keeps blank ran
  refine ⟨?_, ?_, ?_, ?_⟩
  · intro id secret created once
    obtain ⟨single, unchanged⟩ := delivered_once explained fresh created once
    exact ⟨single, unchanged, fun next delivered => deleted_of_retrieved delivered once⟩
  · intro id secret outstanding
    have alive := live_of_outstanding explained fresh outstanding
    have mirrors := tracks.shown
    rw [← tracks.time] at mirrors
    obtain ⟨left, asked, -⟩ := mirrors.get id
    rw [asked, tracks.time]
    exact congrArg Store.found alive
  · intro id error failed
    exact error_means keeps explained tracks fresh failed
  · intro id error failed
    exact delete_error failed

/-! Two notes are left. The first reader of the first one gets none, since its removal fails; the
second reader gets it. The other note waits. -/
section FailedRemoval

def note : Secret := .ofLifetime "note" .hour true

def firstId : SecretId := (SecretId.draw countedIds 0).1

def secondId : SecretId := (SecretId.draw countedIds 1).1

def failedRemoval : List Event :=
  [.created note (.ok firstId), .created note (.ok secondId),
    .retrieved firstId (.error (.clear (Faulty.injected "delete"))),
    .retrieved firstId (.ok note), .retrieved firstId (.error .notFound)]

theorem secondId_outstanding : Outstanding secondId note failedRemoval := by
  refine ⟨[.created note (.ok firstId)], _, rfl, ?_, ?_⟩
  · decide +kernel
  · decide

theorem failed_removal_loses_nothing :
    ∃ world, replay (Service.perform ⟨faulty (1 / 4) memory, countedIds, .standard⟩)
        [.create note, .create note, .retrieve firstId, .retrieve firstId, .retrieve firstId]
        ⟨.start 0, Faulty.start 36 Memory.empty, 0⟩ = some (failedRemoval, world) ∧
      FreshIds failedRemoval ∧ failedRemoval.countP (Event.delivers firstId) ≤ 1 ∧
      (Memory.get world.clock secondId world.state.inner).1 = .ok note := by
  let entry : Memory.Entry := ⟨note, 0, Deposit.lifespan note⟩
  let world : World (Faulty Memory) Nat := ⟨.start 0, ⟨[(secondId, entry)], 3698220641, 7, 1⟩, 2⟩
  have ran : replay (Service.perform ⟨faulty (1 / 4) memory, countedIds, .standard⟩)
      [.create note, .create note, .retrieve firstId, .retrieve firstId, .retrieve firstId]
      ⟨.start 0, Faulty.start 36 Memory.empty, 0⟩ = some (failedRemoval, world) := by
    decide +kernel
  have fresh : FreshIds failedRemoval := by
    unfold FreshIds
    decide +kernel
  have created : .created note (.ok firstId) ∈ failedRemoval := List.mem_cons_self
  obtain ⟨delivery, waiting, -⟩ := faults_neither_repeat_nor_lose (1 / 4) .standard countedIds
    [.create note, .create note, .retrieve firstId, .retrieve firstId, .retrieve firstId]
    (.start 0) 36 0 failedRemoval world ran fresh
  exact ⟨world, ran, fresh, (delivery firstId note created rfl).1,
    waiting secondId note secondId_outstanding⟩

end FailedRemoval

end Service

end DeadDrop
