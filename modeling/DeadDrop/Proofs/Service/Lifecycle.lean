import DeadDrop.Proofs.Replay
import DeadDrop.Proofs.Service.Calls

/-!
The life of a secret as a user may think of it: left under an id at some moment, there to be read
until its lifespan has passed to the nanosecond, gone once a one-time reading or a removal took it.
The machine below keeps no entry that is not on its ledger and never tidies up. A service over the
store in memory cannot be told from it, so nobody sees when expired entries are dropped, when the
service is purged or how often it was asked for the status of a secret.
-/

namespace DeadDrop

open Store (Memory Ledger Deposit memory memory_keeps)

/-- The reference: a ledger, a clock and the source of the next ids. -/
structure Lifecycle (Seed : Type) where
  clock : Clock
  ledger : Ledger
  seed : Seed

namespace Service

namespace Call

def isPurge : Call → Bool
  | purge => true
  | _ => false

def isStatus : Call → Bool
  | status _ => true
  | _ => false

end Call

namespace Event

/-- How many entries a purge dropped is the only answer that shows the entries themselves. -/
def isAnswer : Event → Bool
  | purged _ => false
  | _ => true

def isHandling : Event → Bool
  | purged _ => false
  | inspected _ _ => false
  | _ => true

theorem isHandling_of_not_isAnswer {event : Event} (unseen : event.isAnswer = false) :
    event.isHandling = false := by
  cases event with
  | purged reply => rfl
  | _ => cases unseen

end Event

end Service

namespace Lifecycle

open Service (Call Event World)

variable {Seed : Type} {policy : Policy} {ids : Random.Source Seed}

def now (life : Lifecycle Seed) : Nat := life.clock.elapsed

def perform (policy : Policy) (ids : Random.Source Seed) :
    Call → Lifecycle Seed → Option (Event × Lifecycle Seed)
  | .create secret, life =>
      match policy.check secret with
      | .error violation => some (.created secret (.error (.ofViolation violation)), life)
      | .ok () =>
          let (id, seed) := SecretId.draw ids life.seed
          some (.created secret (.ok id),
            { life with ledger := life.ledger.enter id ⟨secret, life.now⟩, seed := seed })
  | .retrieve id, life =>
      match life.ledger.live life.now id with
      | none => some (.retrieved id (.error .notFound), life)
      | some deposit =>
          if deposit.secret.oneTime then
            some (.retrieved id (.ok deposit.secret),
              { life with ledger := life.ledger.strike id })
          else some (.retrieved id (.ok deposit.secret), life)
  | .delete id, life =>
      some (.deleted id (.ok (life.ledger.live life.now id).isSome),
        { life with ledger := life.ledger.strike id })
  | .status id, life =>
      match life.ledger.live life.now id with
      | none => some (.inspected id (.error .notFound), life)
      | some deposit => some (.inspected id (.ok deposit.secret.oneTime), life)
  | .purge, life => some (.purged (.ok 0), life)
  | .wait nanoseconds, life =>
      (life.clock.advance? nanoseconds).map fun clock =>
        (.waited nanoseconds, { life with clock := clock })

/-- The lives that a world with its entries stands for. -/
structure Shadows (world : World Memory Seed) (life : Lifecycle Seed) : Prop where
  clock : world.clock = life.clock
  seed : world.seed = life.seed
  mirrors : Memory.Mirrors world.clock.elapsed world.state life.ledger

theorem shadows_start (clock : Clock) (seed : Seed) :
    Shadows ⟨clock, Memory.empty, seed⟩ ⟨clock, .empty, seed⟩ :=
  ⟨rfl, rfl, .empty _⟩

section Steps

variable {service : Service Memory Seed} {world : World Memory Seed} {life : Lifecycle Seed}

theorem create_together (keeps : service.store = memory) (secret : Secret)
    (shadows : Shadows world life) :
    Lockstep Shadows Event.isAnswer (service.perform (.create secret) world)
      (perform service.policy service.ids (.create secret) life) := by
  obtain ⟨sameClock, sameSeed, mirrors⟩ := shadows
  cases judged : service.policy.check secret with
  | error violation =>
      simp only [Service.perform, perform, judged, Service.create_refused judged]
      exact .moved ⟨sameClock, sameSeed, mirrors⟩ (Or.inl rfl)
  | ok admitted =>
      obtain ⟨left, created, mirrors'⟩ := Service.answered_of_settles
        (Service.create_settles (keeps ▸ memory_keeps) judged mirrors)
      simp only [Service.perform, perform, judged, created, now, ← sameClock, ← sameSeed]
      exact .moved ⟨rfl, rfl, mirrors'⟩ (Or.inl rfl)

theorem retrieve_together (keeps : service.store = memory) (id : SecretId)
    (shadows : Shadows world life) :
    Lockstep Shadows Event.isAnswer (service.perform (.retrieve id) world)
      (perform service.policy service.ids (.retrieve id) life) := by
  obtain ⟨sameClock, sameSeed, mirrors⟩ := shadows
  obtain ⟨left, retrieved, mirrors'⟩ := Service.answered_of_settles
    (Service.retrieve_settles (keeps ▸ memory_keeps) id mirrors)
  unfold Ledger.reading at retrieved
  unfold Ledger.afterReading at mirrors'
  simp only [Service.perform, perform, retrieved, now, ← sameClock]
  cases shown : life.ledger.live world.clock.elapsed id with
  | none =>
      rw [shown] at mirrors'
      exact .moved ⟨sameClock, sameSeed, mirrors'⟩ (Or.inl rfl)
  | some deposit =>
      rw [shown] at mirrors'
      by_cases once : deposit.secret.oneTime = true
      · simp only [once, if_true] at mirrors' ⊢
        exact .moved ⟨rfl, sameSeed, mirrors'⟩ (Or.inl rfl)
      · simp only [once, Bool.false_eq_true, if_false] at mirrors' ⊢
        exact .moved ⟨sameClock, sameSeed, mirrors'⟩ (Or.inl rfl)

theorem delete_together (keeps : service.store = memory) (id : SecretId)
    (shadows : Shadows world life) :
    Lockstep Shadows Event.isAnswer (service.perform (.delete id) world)
      (perform service.policy service.ids (.delete id) life) := by
  obtain ⟨sameClock, sameSeed, mirrors⟩ := shadows
  obtain ⟨left, deleted, mirrors'⟩ := Service.answered_of_settles
    (Service.delete_settles (keeps ▸ memory_keeps) id mirrors)
  simp only [Service.perform, perform, deleted, now, ← sameClock]
  exact .moved ⟨rfl, sameSeed, mirrors'⟩ (Or.inl rfl)

theorem status_together (keeps : service.store = memory) (id : SecretId)
    (shadows : Shadows world life) :
    Lockstep Shadows Event.isAnswer (service.perform (.status id) world)
      (perform service.policy service.ids (.status id) life) := by
  obtain ⟨sameClock, sameSeed, mirrors⟩ := shadows
  obtain ⟨left, inspected, mirrors'⟩ := Service.answered_of_settles
    (Service.status_settles (keeps ▸ memory_keeps) id mirrors)
  unfold Ledger.inspecting at inspected
  simp only [Service.perform, perform, inspected, now, ← sameClock]
  cases life.ledger.live world.clock.elapsed id with
  | none => exact .moved ⟨sameClock, sameSeed, mirrors'⟩ (Or.inl rfl)
  | some deposit => exact .moved ⟨sameClock, sameSeed, mirrors'⟩ (Or.inl rfl)

theorem purge_together (keeps : service.store = memory) (shadows : Shadows world life) :
    Lockstep Shadows Event.isAnswer (service.perform .purge world)
      (perform service.policy service.ids .purge life) := by
  obtain ⟨sameClock, sameSeed, mirrors⟩ := shadows
  obtain ⟨reply, left, purged, mirrors'⟩ := Service.purge_settles (keeps ▸ memory_keeps) mirrors
  simp only [Service.perform, perform, purged]
  exact .moved ⟨sameClock, sameSeed, mirrors'⟩ (Or.inr ⟨rfl, rfl⟩)

theorem wait_together (nanoseconds : Nat) (shadows : Shadows world life) :
    Lockstep Shadows Event.isAnswer (service.perform (.wait nanoseconds) world)
      (perform service.policy service.ids (.wait nanoseconds) life) := by
  obtain ⟨sameClock, sameSeed, mirrors⟩ := shadows
  simp only [Service.perform, perform, World.advance?, ← sameClock]
  cases moved : world.clock.advance? nanoseconds with
  | none => exact .stopped
  | some clock =>
      have order : world.clock.elapsed ≤ clock.elapsed := by
        rw [Clock.elapsed_of_advance? moved]
        exact Nat.le_add_right _ _
      exact .moved ⟨rfl, sameSeed, mirrors.later order⟩ (Or.inl rfl)

theorem perform_together (keeps : service.store = memory) (call : Call)
    (shadows : Shadows world life) :
    Lockstep Shadows Event.isAnswer (service.perform call world)
      (perform service.policy service.ids call life) := by
  cases call with
  | create secret => exact create_together keeps secret shadows
  | retrieve id => exact retrieve_together keeps id shadows
  | delete id => exact delete_together keeps id shadows
  | status id => exact status_together keeps id shadows
  | purge => exact purge_together keeps shadows
  | wait nanoseconds => exact wait_together nanoseconds shadows

end Steps

theorem perform_purge {call : Call} (life : Lifecycle Seed) (purges : call.isPurge = true) :
    ∃ event, perform policy ids call life = some (event, life) ∧ event.isAnswer = false := by
  cases call with
  | purge => exact ⟨_, rfl, rfl⟩
  | _ => cases purges

theorem perform_idle {call : Call} (life : Lifecycle Seed)
    (idle : (call.isPurge || call.isStatus) = true) :
    ∃ event, perform policy ids call life = some (event, life) ∧ event.isHandling = false := by
  cases call with
  | purge => exact ⟨_, rfl, rfl⟩
  | status id =>
      cases shown : life.ledger.live life.now id with
      | none => exact ⟨.inspected id (.error .notFound), by simp [perform, shown], rfl⟩
      | some deposit =>
          exact ⟨.inspected id (.ok deposit.secret.oneTime), by simp [perform, shown], rfl⟩
  | _ => cases idle

end Lifecycle

namespace Service

open Lifecycle

variable {Seed : Type}

/-- Over the store in memory every answer but the count of a purge is the reference's, whatever
ids are drawn. Purging and asking for the status do not show in later answers. -/
theorem outcome_eq_lifecycle (policy : Policy) (ids : Random.Source Seed) (calls : List Call)
    (clock : Clock) (seed : Seed) :
    let service : Service Memory Seed := ⟨memory, ids, policy⟩
    let world : World Memory Seed := ⟨clock, Memory.empty, seed⟩
    outcome service.perform Event.isAnswer calls world =
        outcome (Lifecycle.perform policy ids) Event.isAnswer calls ⟨clock, .empty, seed⟩ ∧
      outcome service.perform Event.isAnswer (calls.filter fun call => !call.isPurge) world =
        outcome service.perform Event.isAnswer calls world ∧
      outcome service.perform Event.isHandling
          (calls.filter fun call => !(call.isPurge || call.isStatus)) world =
        outcome service.perform Event.isHandling calls world := by
  intro service world
  let start : Lifecycle Seed := ⟨clock, .empty, seed⟩
  have step (call : Call) (world : World Memory Seed) (life : Lifecycle Seed)
      (shadows : Shadows world life) :
      Lockstep Shadows Event.isAnswer (service.perform call world)
        (Lifecycle.perform policy ids call life) :=
    perform_together rfl call shadows
  have answers (some : List Call) :
      outcome service.perform Event.isAnswer some world =
        outcome (Lifecycle.perform policy ids) Event.isAnswer some start :=
    outcome_lockstep step some world start (shadows_start clock seed)
  have handlings (some : List Call) :
      outcome service.perform Event.isHandling some world =
        outcome (Lifecycle.perform policy ids) Event.isHandling some start :=
    outcome_lockstep
      (fun call world life shadows =>
        (step call world life shadows).blinder fun _ => Event.isHandling_of_not_isAnswer)
      some world start (shadows_start clock seed)
  refine ⟨answers calls, ?_, ?_⟩
  · rw [answers, answers]
    exact (outcome_skip (fun _ life => perform_purge life) calls start).symm
  · rw [handlings, handlings]
    exact (outcome_skip (fun _ life => perform_idle life) calls start).symm

end Service

end DeadDrop
