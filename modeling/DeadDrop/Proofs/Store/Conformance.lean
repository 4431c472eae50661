import DeadDrop.Proofs.Store.Ledger
import DeadDrop.Store.Faulty

/-!
Which stores keep a ledger: each operation gives the ledger's answer and brings the store to where
it shows the next ledger, or it fails and the store still shows the same one. The store in memory
never fails. Wrapping a store in injected failures adds failures and nothing else.
-/

namespace DeadDrop.Store

variable {State α : Type}

/-- How one operation ends on a store that showed `before`. A failure never reads as absence. -/
inductive Conforms (fallible : Prop) (shows : State → Ledger → Prop) (before : Ledger)
    (answer : Except Error α) (after : Ledger) : Answer State α → Prop where
  | answered {left : State} : shows left after →
      Conforms fallible shows before answer after (answer, left)
  | failed {left : State} {cause : Error} : fallible → cause.isNotFound = false →
      shows left before → Conforms fallible shows before answer after (.error cause, left)

theorem Conforms.of_eq {fallible : Prop} {shows : State → Ledger → Prop} {before after : Ledger}
    {answer : Except Error α} {outcome : Answer State α} {left : State}
    (ends : outcome = (answer, left)) (shown : shows left after) :
    Conforms fallible shows before answer after outcome := by
  subst ends
  exact .answered shown

structure Keeps (store : Store State) (fallible : Prop)
    (shows : Nat → State → Ledger → Prop) : Prop where
  later : ∀ {now later : Nat} {state : State} {ledger : Ledger},
    shows now state ledger → now ≤ later → shows later state ledger
  get : ∀ (clock : Clock) (id : SecretId) {state : State} {ledger : Ledger},
    shows clock.elapsed state ledger →
    Conforms fallible (shows clock.elapsed) ledger
      (found ((ledger.live clock.elapsed id).map Deposit.secret)) ledger
      (store.get clock id state)
  put : ∀ (clock : Clock) (id : SecretId) (secret : Secret) {state : State} {ledger : Ledger},
    0 < secret.expiration.toInt → shows clock.elapsed state ledger →
    Conforms fallible (shows clock.elapsed) ledger
      (.ok ()) (ledger.enter id ⟨secret, clock.elapsed⟩) (store.put clock id secret state)
  delete : ∀ (clock : Clock) (id : SecretId) {state : State} {ledger : Ledger},
    shows clock.elapsed state ledger →
    Conforms fallible (shows clock.elapsed) ledger
      (.ok (ledger.live clock.elapsed id).isSome) (ledger.strike id) (store.delete clock id state)
  status : ∀ (clock : Clock) (id : SecretId) {state : State} {ledger : Ledger},
    shows clock.elapsed state ledger →
    Conforms fallible (shows clock.elapsed) ledger
      (found ((ledger.live clock.elapsed id).map fun deposit => deposit.secret.oneTime)) ledger
      (store.status clock id state)
  purge : ∀ (clock : Clock) {state : State} {ledger : Ledger},
    shows clock.elapsed state ledger →
    ∃ count, Conforms fallible (shows clock.elapsed) ledger (.ok count) ledger
      (store.purge clock state)

theorem memory_keeps : Keeps memory False Memory.Mirrors where
  later := fun shown order => shown.later order
  get := fun clock id _ _ shown => by
    obtain ⟨left, asked, mirrors⟩ := shown.get id
    exact .of_eq asked mirrors
  put := fun clock id secret _ _ positive shown => by
    obtain ⟨left, asked, mirrors⟩ := shown.put id secret positive
    exact .of_eq asked mirrors
  delete := fun clock id _ _ shown => by
    obtain ⟨left, asked, mirrors⟩ := shown.delete id
    exact .of_eq asked mirrors
  status := fun clock id _ _ shown => by
    obtain ⟨left, asked, mirrors⟩ := shown.status id
    exact .of_eq asked mirrors
  purge := fun clock _ _ shown => by
    obtain ⟨count, left, asked, mirrors⟩ := shown.purge
    exact ⟨count, .of_eq asked mirrors⟩

def Faulty.Shows (shows : Nat → State → Ledger → Prop) (now : Nat) (faulty : Faulty State)
    (ledger : Ledger) : Prop := shows now faulty.inner ledger

section Faults

variable {fallible : Prop} {shows : Nat → State → Ledger → Prop}

theorem attempt_conforms (rate : Rat) (operation : String) {now : Nat}
    {call : State → Answer State α} {faulty : Faulty State} {before after : Ledger}
    {answer : Except Error α} (shown : shows now faulty.inner before)
    (inside : Conforms fallible (shows now) before answer after (call faulty.inner)) :
    Conforms True (Faulty.Shows shows now) before answer after
      (Faulty.attempt rate operation call faulty) := by
  unfold Faulty.attempt
  by_cases injected : Faulty.fails rate (Faulty.next faulty.generator) = true
  · simp only [injected, if_true]
    exact .failed trivial rfl shown
  · simp only [injected, Bool.false_eq_true, if_false]
    generalize call faulty.inner = outcome at inside
    cases inside with
    | answered shown' => exact .answered shown'
    | failed _ known shown' => exact .failed trivial known shown'

-- The fields of the faulty store are rewritten, not unfolded by the checker: comparing two
-- attempts by evaluation would run the generator.
theorem faulty_keeps (rate : Rat) {store : Store State} (keeps : Keeps store fallible shows) :
    Keeps (faulty rate store) True (Faulty.Shows shows) := by
  constructor
  · intro now later state ledger shown order
    exact keeps.later shown order
  · intro clock id state ledger shown
    simp only [faulty]
    exact attempt_conforms rate "get" shown (keeps.get clock id shown)
  · intro clock id secret state ledger positive shown
    simp only [faulty]
    exact attempt_conforms rate "put" shown (keeps.put clock id secret positive shown)
  · intro clock id state ledger shown
    simp only [faulty]
    exact attempt_conforms rate "delete" shown (keeps.delete clock id shown)
  · intro clock id state ledger shown
    simp only [faulty]
    exact attempt_conforms rate "status" shown (keeps.status clock id shown)
  · intro clock state ledger shown
    simp only [faulty]
    obtain ⟨count, inside⟩ := keeps.purge clock shown
    exact ⟨count, attempt_conforms rate "purge_expired" shown inside⟩

end Faults

end DeadDrop.Store
