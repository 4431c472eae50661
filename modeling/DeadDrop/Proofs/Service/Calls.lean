import DeadDrop.Proofs.Store.Book
import DeadDrop.Proofs.Store.Conformance
import DeadDrop.Service

/-!
The calls on a service, each with its answer, and what they do over a store that keeps a ledger.
Every call settles: it gives the answer that the ledger determines and brings the ledger where it
should be, or it reports a failure of the store and nothing has changed.
-/

namespace DeadDrop

open Store (Ledger Deposit Book Sighting Conforms Keeps)

namespace Store.Ledger

def reading (now : Nat) (ledger : Ledger) (id : SecretId) : Except Service.Error Secret :=
  match ledger.live now id with
  | some deposit => .ok deposit.secret
  | none => .error .notFound

def inspecting (now : Nat) (ledger : Ledger) (id : SecretId) : Except Service.Error Bool :=
  match ledger.live now id with
  | some deposit => .ok deposit.secret.oneTime
  | none => .error .notFound

/-- Reading takes a one-time secret away. -/
def afterReading (now : Nat) (ledger : Ledger) (id : SecretId) : Ledger :=
  match ledger.live now id with
  | some deposit => if deposit.secret.oneTime then ledger.strike id else ledger
  | none => ledger

end Store.Ledger

namespace Service

variable {State Seed α : Type}

inductive Call where
  | create (secret : Secret)
  | retrieve (id : SecretId)
  | delete (id : SecretId)
  | status (id : SecretId)
  | purge
  | wait (nanoseconds : Nat)
  deriving DecidableEq

inductive Event where
  | created (secret : Secret) (reply : Except Error SecretId)
  | retrieved (id : SecretId) (reply : Except Error Secret)
  | deleted (id : SecretId) (reply : Except Error Bool)
  | inspected (id : SecretId) (reply : Except Error Bool)
  | purged (reply : Except Store.Error Nat)
  | waited (nanoseconds : Nat)
  deriving DecidableEq

/-- There is no outcome only where the clock comes to its end. -/
def perform (service : Service State Seed) :
    Call → World State Seed → Option (Event × World State Seed)
  | .create secret, world =>
      let (reply, next) := service.create secret world
      some (.created secret reply, next)
  | .retrieve id, world =>
      let (reply, next) := service.retrieve id world
      some (.retrieved id reply, next)
  | .delete id, world =>
      let (reply, next) := service.delete id world
      some (.deleted id reply, next)
  | .status id, world =>
      let (reply, next) := service.status id world
      some (.inspected id reply, next)
  | .purge, world =>
      let (reply, next) := service.purge world
      some (.purged reply, next)
  | .wait nanoseconds, world =>
      (world.advance? nanoseconds).map fun next => (.waited nanoseconds, next)

/-- Ids from a counter, for runs that can be followed by hand. -/
def countedIds : Random.Source Nat :=
  ⟨fun count size => (Sized.filled size (UInt8.ofNat count), count + 1)⟩

def Error.ofViolation : Policy.Violation → Error
  | .request refusal => .refused refusal
  | .configuration fault => .misconfigured fault

/-- How a call ends in a world that showed `before`. -/
inductive Settles (fallible : Prop) (shows : State → Ledger → Prop) (world : World State Seed)
    (before : Ledger) (answer : Except Error α) (after : Ledger) :
    Reply State Seed α → Prop where
  | answered {left : State} : shows left after →
      Settles fallible shows world before answer after (answer, { world with state := left })
  | failed {left : State} {error : Error} : fallible → error.blamesStore = true →
      shows left before →
      Settles fallible shows world before answer after
        (.error error, { world with state := left })

/-- Over a store that never fails a call ends in one way only. -/
theorem answered_of_settles {shows : State → Ledger → Prop} {world : World State Seed}
    {before after : Ledger} {answer : Except Error α} {reply : Reply State Seed α}
    (settled : Settles False shows world before answer after reply) :
    ∃ left, reply = (answer, { world with state := left }) ∧ shows left after := by
  cases settled with
  | answered kept => exact ⟨_, rfl, kept⟩
  | failed fails => exact fails.elim

section Answers

variable {service : Service State Seed} {world : World State Seed} {secret : Secret}
  {id : SecretId} {left after : State}

theorem ask_eq (wrap : Store.Error → Error) (call : Clock → State → Store.Answer State α)
    (world : World State Seed) :
    ask wrap call world = ((call world.clock world.state).1.mapError wrap,
      { world with state := (call world.clock world.state).2 }) := rfl

theorem create_refused {violation : Policy.Violation}
    (refused : service.policy.check secret = .error violation) :
    service.create secret world = (.error (.ofViolation violation), world) := by
  unfold create
  rw [refused]
  cases violation <;> rfl

theorem create_of_put {answer : Except Store.Error Unit}
    (admitted : service.policy.check secret = .ok ())
    (put : service.store.put world.clock (SecretId.draw service.ids world.seed).1 secret
      world.state = (answer, left)) :
    service.create secret world =
      ((answer.mapError .store).map fun _ => (SecretId.draw service.ids world.seed).1,
        { world with state := left, seed := (SecretId.draw service.ids world.seed).2 }) := by
  have same : service.newId world = ((SecretId.draw service.ids world.seed).1,
    { world with seed := (SecretId.draw service.ids world.seed).2 }) := rfl
  simp only [create, admitted, same, ask_eq, put]

theorem retrieve_missed {error : Store.Error}
    (got : service.store.get world.clock id world.state = (.error error, left)) :
    service.retrieve id world = (.error (.ofRead error), { world with state := left }) := by
  rw [retrieve, ask_eq]
  simp only [got, Except.mapError]

theorem retrieve_found {answer : Except Store.Error Bool}
    (got : service.store.get world.clock id world.state = (.ok secret, left))
    (gone : service.store.delete world.clock id left = (answer, after)) :
    service.retrieve id world =
      if secret.oneTime then
        ((answer.mapError .clear).map fun _ => secret, { world with state := after })
      else (.ok secret, { world with state := left }) := by
  rw [retrieve, ask_eq]
  simp only [got, ask_eq, gone, Except.mapError]

end Answers

section Settling

variable {fallible : Prop} {shows : Nat → State → Ledger → Prop}

theorem ask_settles (wrap : Store.Error → Error) (call : Clock → State → Store.Answer State α)
    (world : World State Seed) {before after : Ledger} {answer : Except Store.Error α}
    {shown : State → Ledger → Prop}
    (blames : ∀ cause, cause.isNotFound = false → (wrap cause).blamesStore = true)
    (conforms : Conforms fallible shown before answer after (call world.clock world.state)) :
    Settles fallible shown world before (answer.mapError wrap) after (ask wrap call world) := by
  unfold ask
  generalize call world.clock world.state = outcome at conforms
  cases conforms with
  | answered kept => exact .answered kept
  | failed fails known kept => exact .failed fails (blames _ known) kept

theorem ofRead_blamesStore (cause : Store.Error) (known : cause.isNotFound = false) :
    (Error.ofRead cause).blamesStore = true := by
  cases cause with
  | notFound => cases known
  | _ => rfl

variable {service : Service State Seed} {world : World State Seed} {ledger : Ledger}

theorem look_settles (keeps : Keeps service.store fallible shows) (id : SecretId)
    (shown : shows world.clock.elapsed world.state ledger) :
    Settles fallible (shows world.clock.elapsed) world ledger
      (ledger.reading world.clock.elapsed id) ledger
      (ask .ofRead (fun clock => service.store.get clock id) world) := by
  have settled := ask_settles .ofRead (fun clock => service.store.get clock id) world
    ofRead_blamesStore (keeps.get world.clock id shown)
  unfold Ledger.reading
  cases live : ledger.live world.clock.elapsed id with
  | none => rw [live] at settled; exact settled
  | some deposit => rw [live] at settled; exact settled

theorem remove_settles (keeps : Keeps service.store fallible shows) (id : SecretId)
    (wrap : Store.Error → Error) (blames : ∀ cause, (wrap cause).blamesStore = true)
    (world : World State Seed) (shown : shows world.clock.elapsed world.state ledger) :
    Settles fallible (shows world.clock.elapsed) world ledger
      (.ok (ledger.live world.clock.elapsed id).isSome) (ledger.strike id)
      (ask wrap (fun clock => service.store.delete clock id) world) :=
  ask_settles wrap (fun clock => service.store.delete clock id) world (fun cause _ => blames cause)
    (keeps.delete world.clock id shown)

theorem delete_settles (keeps : Keeps service.store fallible shows) (id : SecretId)
    (shown : shows world.clock.elapsed world.state ledger) :
    Settles fallible (shows world.clock.elapsed) world ledger
      (.ok (ledger.live world.clock.elapsed id).isSome) (ledger.strike id)
      (service.delete id world) :=
  remove_settles keeps id .delete (fun _ => rfl) world shown

theorem status_settles (keeps : Keeps service.store fallible shows) (id : SecretId)
    (shown : shows world.clock.elapsed world.state ledger) :
    Settles fallible (shows world.clock.elapsed) world ledger
      (ledger.inspecting world.clock.elapsed id) ledger (service.status id world) := by
  have settled := ask_settles .ofRead (fun clock => service.store.status clock id) world
    ofRead_blamesStore (keeps.status world.clock id shown)
  unfold Ledger.inspecting
  cases live : ledger.live world.clock.elapsed id with
  | none => rw [live] at settled; exact settled
  | some deposit => rw [live] at settled; exact settled

theorem retrieve_settles (keeps : Keeps service.store fallible shows) (id : SecretId)
    (shown : shows world.clock.elapsed world.state ledger) :
    Settles fallible (shows world.clock.elapsed) world ledger
      (ledger.reading world.clock.elapsed id) (ledger.afterReading world.clock.elapsed id)
      (service.retrieve id world) := by
  have looked := look_settles keeps id shown
  unfold retrieve
  generalize ask .ofRead (fun clock => service.store.get clock id) world = first at looked
  cases looked with
  | failed fails blamed kept => exact .failed fails blamed kept
  | @answered left kept =>
      unfold Ledger.reading Ledger.afterReading
      cases live : ledger.live world.clock.elapsed id with
      | none => exact .answered kept
      | some deposit =>
          by_cases once : deposit.secret.oneTime = true
          -- The removal starts where the look has left the store. If it fails nothing is gone.
          · have removed := remove_settles keeps id .clear (fun _ => rfl)
              { world with state := left } kept
            simp only [once, if_true]
            generalize ask .clear (fun clock => service.store.delete clock id)
              { world with state := left } = second at removed
            cases removed with
            | answered gone => exact .answered gone
            | failed fails blamed kept => exact .failed fails blamed kept
          · simp only [once, Bool.false_eq_true, if_false]
            exact .answered kept

theorem create_settles (keeps : Keeps service.store fallible shows) {secret : Secret}
    (admitted : service.policy.check secret = .ok ())
    (shown : shows world.clock.elapsed world.state ledger) :
    Settles fallible (shows world.clock.elapsed)
      { world with seed := (SecretId.draw service.ids world.seed).2 } ledger
      (.ok (SecretId.draw service.ids world.seed).1)
      (ledger.enter (SecretId.draw service.ids world.seed).1 ⟨secret, world.clock.elapsed⟩)
      (service.create secret world) := by
  have put := ask_settles .store
    (fun clock => service.store.put clock (service.newId world).1 secret)
    (service.newId world).2 (fun _ _ => rfl)
    (keeps.put world.clock (service.newId world).1 secret (Policy.expiration_pos_of_check admitted)
      shown)
  simp only [create, admitted]
  generalize ask .store (fun clock => service.store.put clock (service.newId world).1 secret)
    (service.newId world).2 = outcome at put
  cases put with
  | answered kept => exact .answered kept
  | failed fails blamed kept => exact .failed fails blamed kept

theorem purge_settles (keeps : Keeps service.store fallible shows)
    (shown : shows world.clock.elapsed world.state ledger) :
    ∃ reply left, service.purge world = (reply, { world with state := left }) ∧
      shows world.clock.elapsed left ledger := by
  obtain ⟨count, conforms⟩ := keeps.purge world.clock shown
  unfold purge
  generalize service.store.purge world.clock world.state = outcome at conforms
  cases conforms with
  | answered kept => exact ⟨_, _, rfl, kept⟩
  | failed fails known kept => exact ⟨_, _, rfl, kept⟩

end Settling

end Service

end DeadDrop
