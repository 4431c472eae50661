import DeadDrop.Proofs.Replay
import DeadDrop.Proofs.Store.Ledger
import DeadDrop.Store.Durable

/-!
Operations on a store one after another, with whole seconds between them. A ledger is a store
itself: it answers from its live part and drops nothing on its own. A store serves the ledger if
every operation gives the ledger's answer and leaves a state that shows the ledger's. Stores that
serve it cannot be told apart, and since purging does nothing to a ledger, nobody sees when they
are purged.
-/

namespace DeadDrop.Store

inductive Operation where
  | put (id : SecretId) (secret : Secret)
  | get (id : SecretId)
  | status (id : SecretId)
  | delete (id : SecretId)
  | purge
  | wait (seconds : Nat)
  | reopen
  deriving DecidableEq

namespace Operation

def isPurge : Operation → Bool
  | purge => true
  | _ => false

def seconds : Operation → Nat
  | wait seconds => seconds
  | _ => 0

end Operation

inductive Report where
  | put (answer : Except Error Unit)
  | got (answer : Except Error Secret)
  | status (answer : Except Error Bool)
  | deleted (answer : Except Error Bool)
  | purged (answer : Except Error Nat)
  | waited
  | reopened

/-- How many entries a purge dropped shows the entries themselves, and they are nobody's business.
-/
def Report.isAnswer : Report → Bool
  | purged _ => false
  | _ => true

structure Site (State : Type) where
  clock : Clock
  state : State

variable {State α : Type}

/-- `reopen` is what closing the store and opening it again does to its state. -/
def operate (store : Store State) (reopen : State → State) :
    Operation → Site State → Option (Report × Site State)
  | .put id secret, site =>
      let (answer, left) := store.put site.clock id secret site.state
      some (.put answer, { site with state := left })
  | .get id, site =>
      let (answer, left) := store.get site.clock id site.state
      some (.got answer, { site with state := left })
  | .status id, site =>
      let (answer, left) := store.status site.clock id site.state
      some (.status answer, { site with state := left })
  | .delete id, site =>
      let (answer, left) := store.delete site.clock id site.state
      some (.deleted answer, { site with state := left })
  | .purge, site =>
      let (answer, left) := store.purge site.clock site.state
      some (.purged answer, { site with state := left })
  | .wait seconds, site =>
      (site.clock.advance? (seconds * Clock.second)).map fun clock =>
        (.waited, { site with clock := clock })
  | .reopen, site => some (.reopened, { site with state := reopen site.state })

section Time

def spent : List Operation → Nat
  | [] => 0
  | operation :: rest => operation.seconds + spent rest

def Within (operations : List Operation) (clock : Clock) : Prop :=
  clock.epoch + clock.seconds + spent operations < Durable.lastDeadline

def later (seconds : Nat) (clock : Clock) : Clock :=
  { clock with elapsed := clock.elapsed + seconds * Clock.second }

-- Stated for any moment: comparing two clocks with the seconds multiplied out never ends.
theorem epoch_moved (clock : Clock) (elapsed : Nat) :
    ({ clock with elapsed := elapsed } : Clock).epoch = clock.epoch := rfl

theorem epoch_later (seconds : Nat) (clock : Clock) :
    (later seconds clock).epoch = clock.epoch :=
  epoch_moved clock _

theorem seconds_later (seconds : Nat) (clock : Clock) :
    (later seconds clock).seconds = clock.seconds + seconds := by
  have positive : 0 < Clock.second := by decide
  simp only [Clock.seconds, later]
  rw [Nat.add_mul_div_right _ _ positive]

theorem advance_later {seconds : Nat} {clock : Clock}
    (counted : clock.seconds + seconds < Clock.wordLimit) :
    clock.advance? (seconds * Clock.second) = some (later seconds clock) := by
  rw [← seconds_later seconds clock] at counted
  simp only [Clock.seconds, later] at counted
  simp only [Clock.advance?, if_pos counted, later]

variable {operations rest : List Operation} {operation : Operation} {clock : Clock}

theorem spent_filter (operations : List Operation) :
    spent (operations.filter fun operation => !operation.isPurge) = spent operations := by
  induction operations with
  | nil => rfl
  | cons operation rest ih =>
      rw [List.filter_cons, spent]
      cases operation with
      | purge => exact ih.trans (Nat.zero_add _).symm
      | _ => exact congrArg _ ih

theorem Within.now (within : Within operations clock) :
    clock.epoch + clock.seconds < Durable.lastDeadline :=
  Nat.lt_of_le_of_lt (Nat.le_add_right _ _) within

theorem Within.next (within : Within (operation :: rest) clock) : Within rest clock := by
  rw [Within, spent] at within
  exact Nat.lt_of_le_of_lt (by omega) within

theorem Within.wait {seconds : Nat} (within : Within (.wait seconds :: rest) clock) :
    clock.advance? (seconds * Clock.second) = some (later seconds clock) ∧
      Within rest (later seconds clock) := by
  have waited : (Operation.wait seconds).seconds = seconds := rfl
  rw [Within, spent, waited] at within
  have limit : Durable.lastDeadline ≤ Clock.wordLimit := Nat.sub_le _ _
  constructor
  · apply advance_later
    omega
  · rw [Within, seconds_later, epoch_later]
    omega

end Time

section Reference

def Ledger.store : Store Ledger where
  get clock id ledger := (found ((ledger.live clock.elapsed id).map Deposit.secret), ledger)
  put clock id secret ledger :=
    match span secret with
    | .error error => (.error error, ledger)
    | .ok _ => (.ok (), ledger.enter id ⟨secret, clock.elapsed⟩)
  delete clock id ledger := (.ok (ledger.live clock.elapsed id).isSome, ledger.strike id)
  status clock id ledger :=
    (found ((ledger.live clock.elapsed id).map fun deposit => deposit.secret.oneTime), ledger)
  purge _ ledger := (.ok 0, ledger)

theorem Ledger.store_put_refused {clock : Clock} {secret : Secret} {error : Error}
    (given : span secret = .error error) (id : SecretId) (ledger : Ledger) :
    Ledger.store.put clock id secret ledger = (.error error, ledger) := by
  simp only [Ledger.store, given]

theorem Ledger.store_put_admitted {clock : Clock} {secret : Secret} {seconds : Nat}
    (given : span secret = .ok seconds) (id : SecretId) (ledger : Ledger) :
    Ledger.store.put clock id secret ledger =
      (.ok (), ledger.enter id ⟨secret, clock.elapsed⟩) := by
  simp only [Ledger.store, given]

theorem Ledger.store_delete (clock : Clock) (id : SecretId) (ledger : Ledger) :
    Ledger.store.delete clock id ledger =
      (.ok (ledger.live clock.elapsed id).isSome, ledger.strike id) := rfl

/-- The answer that was expected, and a state that shows what it should. -/
def Follows (shows : State → Ledger → Prop) (outcome : Answer State α)
    (expected : Answer Ledger α) : Prop :=
  outcome.1 = expected.1 ∧ shows outcome.2 expected.2

theorem Follows.of_eq {shows : State → Ledger → Prop} {outcome : Answer State α}
    {answer : Except Error α} {left : State} {after : Ledger}
    (ends : outcome = (answer, left)) (shown : shows left after) :
    Follows shows outcome (answer, after) := by
  subst ends
  exact ⟨rfl, shown⟩

/-- What a store must do to be as good as the ledger, as long as the calendar lasts. -/
structure Serves (store : Store State) (reopen : State → State)
    (shows : Clock → State → Ledger → Prop) : Prop where
  put : ∀ {clock : Clock} {state : State} {ledger : Ledger} (id : SecretId) (secret : Secret),
    clock.epoch + clock.seconds < Durable.lastDeadline → shows clock state ledger →
    Follows (shows clock) (store.put clock id secret state)
      (Ledger.store.put clock id secret ledger)
  get : ∀ {clock : Clock} {state : State} {ledger : Ledger} (id : SecretId),
    clock.epoch + clock.seconds < Durable.lastDeadline → shows clock state ledger →
    Follows (shows clock) (store.get clock id state) (Ledger.store.get clock id ledger)
  status : ∀ {clock : Clock} {state : State} {ledger : Ledger} (id : SecretId),
    clock.epoch + clock.seconds < Durable.lastDeadline → shows clock state ledger →
    Follows (shows clock) (store.status clock id state) (Ledger.store.status clock id ledger)
  delete : ∀ {clock : Clock} {state : State} {ledger : Ledger} (id : SecretId),
    clock.epoch + clock.seconds < Durable.lastDeadline → shows clock state ledger →
    Follows (shows clock) (store.delete clock id state) (Ledger.store.delete clock id ledger)
  purge : ∀ {clock : Clock} {state : State} {ledger : Ledger},
    clock.epoch + clock.seconds < Durable.lastDeadline → shows clock state ledger →
    shows clock (store.purge clock state).2 ledger
  wait : ∀ {clock : Clock} {state : State} {ledger : Ledger} (seconds : Nat),
    shows clock state ledger → shows (later seconds clock) state ledger
  reopen : ∀ {clock : Clock} {state : State} {ledger : Ledger},
    shows clock state ledger → shows clock (reopen state) ledger

/-- A store that shows the ledger at the same moment, with time left for what is to come. -/
structure Beside (shows : Clock → State → Ledger → Prop) (rest : List Operation)
    (site : Site State) (other : Site Ledger) : Prop where
  clock : site.clock = other.clock
  within : Within rest site.clock
  shown : shows site.clock site.state other.state

variable {store : Store State} {reopen : State → State}
  {shows : Clock → State → Ledger → Prop}

theorem operate_beside (serves : Serves store reopen shows) (operation : Operation)
    (rest : List Operation) (site : Site State) (other : Site Ledger)
    (beside : Beside shows (operation :: rest) site other) :
    Lockstep (Beside shows rest) Report.isAnswer (operate store reopen operation site)
      (operate Ledger.store id operation other) := by
  obtain ⟨clock, state⟩ := site
  obtain ⟨_, ledger⟩ := other
  obtain ⟨rfl, within, shown⟩ := beside
  have timely := within.now
  cases operation with
  | put id secret =>
      obtain ⟨answer, left⟩ := serves.put id secret timely shown
      exact .moved ⟨rfl, within.next, left⟩ (.inl (congrArg Report.put answer))
  | get id =>
      obtain ⟨answer, left⟩ := serves.get id timely shown
      exact .moved ⟨rfl, within.next, left⟩ (.inl (congrArg Report.got answer))
  | status id =>
      obtain ⟨answer, left⟩ := serves.status id timely shown
      exact .moved ⟨rfl, within.next, left⟩ (.inl (congrArg Report.status answer))
  | delete id =>
      obtain ⟨answer, left⟩ := serves.delete id timely shown
      exact .moved ⟨rfl, within.next, left⟩ (.inl (congrArg Report.deleted answer))
  | purge => exact .moved ⟨rfl, within.next, serves.purge timely shown⟩ (.inr ⟨rfl, rfl⟩)
  | wait seconds =>
      obtain ⟨moved, onward⟩ := within.wait
      simp only [operate, moved, Option.map_some]
      exact .moved ⟨rfl, onward, serves.wait seconds shown⟩ (.inl rfl)
  | reopen => exact .moved ⟨rfl, within.next, serves.reopen shown⟩ (.inl rfl)

/-- Over a whole run the answers are the ledger's. -/
theorem outcome_serves (serves : Serves store reopen shows) {operations : List Operation}
    {clock : Clock} {state : State} (within : Within operations clock)
    (blank : shows clock state Ledger.empty) :
    outcome (operate store reopen) Report.isAnswer operations ⟨clock, state⟩ =
      outcome (operate Ledger.store id) Report.isAnswer operations ⟨clock, .empty⟩ :=
  outcome_lockstep_ahead (operate_beside serves) operations ⟨clock, state⟩ ⟨clock, Ledger.empty⟩
    ⟨rfl, within, blank⟩

theorem operate_purge (operation : Operation) (site : Site Ledger)
    (purges : operation.isPurge = true) :
    ∃ report, operate Ledger.store id operation site = some (report, site) ∧
      report.isAnswer = false := by
  cases operation with
  | purge => exact ⟨_, rfl, rfl⟩
  | _ => cases purges

theorem operate_ledger_runs (operation : Operation) (rest : List Operation) (site : Site Ledger)
    (within : Within (operation :: rest) site.clock) :
    ∃ report next, operate Ledger.store id operation site = some (report, next) ∧
      Within rest next.clock := by
  cases operation with
  | wait seconds =>
      obtain ⟨moved, onward⟩ := within.wait
      simp only [operate, moved, Option.map_some]
      exact ⟨_, _, rfl, onward⟩
  | _ => exact ⟨_, _, rfl, within.next⟩

/-- Runs that differ in when they purge have the same answers, and there are answers. -/
theorem outcome_purges {operations : List Operation} {clock : Clock}
    (within : Within operations clock) :
    ∃ answers, outcome (operate Ledger.store id) Report.isAnswer operations
        ⟨clock, .empty⟩ = some answers ∧
      outcome (operate Ledger.store id) Report.isAnswer
        (operations.filter fun operation => !operation.isPurge) ⟨clock, .empty⟩ =
          some answers := by
  let start : Site Ledger := ⟨clock, .empty⟩
  obtain ⟨answers, ran⟩ : ∃ answers,
      outcome (operate Ledger.store id) Report.isAnswer operations start = some answers :=
    outcome_of_runs (fun operations site => Within operations site.clock) operate_ledger_runs
      operations start within
  have skipped := outcome_skip operate_purge operations start
  exact ⟨answers, ran, skipped.symm.trans ran⟩

end Reference

end DeadDrop.Store
