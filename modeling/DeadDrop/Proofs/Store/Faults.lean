import DeadDrop.Proofs.Store.Likeness
import DeadDrop.Store.Faulty
import Mathlib.Algebra.Order.Field.Basic
import Mathlib.Algebra.Order.Ring.Rat
import Mathlib.Data.List.Range
import Mathlib.Logic.Function.Iterate

/-!
What injected failures do. The generator alone decides which calls fail, whatever the store inside
is and whatever it is asked. These calls are left out for the store inside: it answers the others,
and ends, as it would had it been asked nothing else. The counters count the calls and the failures.
-/

namespace DeadDrop.Store

variable {State α : Type}

section Calls

def askAll (store : Store State) : List (Clock × Query) → State → List Report × State
  | [], state => ([], state)
  | (clock, query) :: rest, state =>
      let (report, left) := query.ask store clock state
      let (reports, last) := askAll store rest left
      (report :: reports, last)

theorem askAll_cons (store : Store State) (clock : Clock) (query : Query)
    (rest : List (Clock × Query)) (state : State) :
    askAll store ((clock, query) :: rest) state =
      ((query.ask store clock state).1 :: (askAll store rest (query.ask store clock state).2).1,
        (askAll store rest (query.ask store clock state).2).2) := rfl

/-- The items whose mark is `mark`. -/
def marked (mark : Bool) (items : List α) (marks : List Bool) : List α :=
  ((items.zip marks).filter fun item => item.2 = mark).map Prod.fst

theorem marked_cons_same (mark : Bool) (item : α) (items : List α) (marks : List Bool) :
    marked mark (item :: items) (mark :: marks) = item :: marked mark items marks := by
  simp [marked]

theorem marked_cons_other {mark other : Bool} (apart : other ≠ mark) (item : α) (items : List α)
    (marks : List Bool) :
    marked mark (item :: items) (other :: marks) = marked mark items marks := by
  simp [marked, apart]

def Query.name : Query → String
  | get _ => "get"
  | put _ _ => "put"
  | delete _ => "delete"
  | status _ => "status"
  | purge => "purge_expired"

def Query.refuse (error : Error) : Query → Report
  | get _ => .got (.error error)
  | put _ _ => .put (.error error)
  | delete _ => .deleted (.error error)
  | status _ => .status (.error error)
  | purge => .purged (.error error)

end Calls

namespace Faulty

section Plan

/-- The marks of so many calls: those fail where the generator, as a fraction of its modulus, lies
below the rate. -/
def injections (rate : Rat) (seed count : Nat) : List Bool :=
  (List.range count).map fun index => (next^[index + 1] seed : Rat) / modulus < rate

theorem modulus_pos : (0 : Rat) < modulus := Nat.cast_pos.mpr (by decide)

theorem fails_eq (rate : Rat) (state : Nat) :
    fails rate state = decide ((state : Rat) / modulus < rate) := by
  rw [fails, decide_eq_decide, div_lt_iff₀ modulus_pos]

theorem injections_succ (rate : Rat) (seed count : Nat) :
    injections rate seed (count + 1) =
      fails rate (next seed) :: injections rate (next seed) count := by
  -- Rewritten, not compared by evaluation, which would run the generator.
  have later (index : Nat) : next^[index + 1 + 1] seed = next^[index + 1] (next seed) :=
    Function.iterate_succ_apply next (index + 1) seed
  simp only [injections, List.range_succ_eq_map, List.map_cons, List.map_map, Function.comp_def,
    Nat.succ_eq_add_one, later, Nat.zero_add, Function.iterate_one, fails_eq]

theorem injections_of_le_zero {rate : Rat} (never : rate ≤ 0) (seed count : Nat) :
    injections rate seed count = List.replicate count false := by
  rw [List.eq_replicate_iff]
  constructor
  · simp only [injections, List.length_map, List.length_range]
  · intro mark member
    obtain ⟨index, -, rfl⟩ := List.mem_map.mp member
    have share : (0 : Rat) ≤ (next^[index + 1] seed : Rat) / modulus :=
      div_nonneg (Nat.cast_nonneg _) modulus_pos.le
    exact decide_eq_false (not_lt.mpr (never.trans share))

theorem drawn_lt (seed index : Nat) : next^[index + 1] seed < modulus := by
  rw [Function.iterate_succ_apply']
  exact Nat.mod_lt _ (by decide)

/-- A rate of one fails every call: what the generator comes to lies below its modulus. -/
theorem injections_of_one_le {rate : Rat} (always : 1 ≤ rate) (seed count : Nat) :
    injections rate seed count = List.replicate count true := by
  rw [List.eq_replicate_iff]
  constructor
  · simp only [injections, List.length_map, List.length_range]
  · intro mark member
    obtain ⟨index, -, rfl⟩ := List.mem_map.mp member
    have share : (next^[index + 1] seed : Rat) / modulus < 1 := by
      rw [div_lt_one₀ modulus_pos, Nat.cast_lt]
      exact drawn_lt seed index
    exact decide_eq_true (share.trans_le always)

end Plan

section Run

variable {rate : Rat} {store : Store State} {clock : Clock} {first : Faulty State}

def refusal (query : Query) : Report :=
  query.refuse (.io ("chaotic failure injection (" ++ query.name ++ ")"))

variable (rate store) in
theorem faulty_get (clock : Clock) (id : SecretId) (first : Faulty State) :
    (faulty rate store).get clock id first =
      attempt rate "get" (store.get clock id) first := by
  simp only [faulty]

variable (rate store) in
theorem faulty_put (clock : Clock) (id : SecretId) (secret : Secret) (first : Faulty State) :
    (faulty rate store).put clock id secret first =
      attempt rate "put" (store.put clock id secret) first := by
  simp only [faulty]

variable (rate store) in
theorem faulty_delete (clock : Clock) (id : SecretId) (first : Faulty State) :
    (faulty rate store).delete clock id first =
      attempt rate "delete" (store.delete clock id) first := by
  simp only [faulty]

variable (rate store) in
theorem faulty_status (clock : Clock) (id : SecretId) (first : Faulty State) :
    (faulty rate store).status clock id first =
      attempt rate "status" (store.status clock id) first := by
  simp only [faulty]

variable (rate store) in
theorem faulty_purge (clock : Clock) (first : Faulty State) :
    (faulty rate store).purge clock first =
      attempt rate "purge_expired" (store.purge clock) first := by
  simp only [faulty]

theorem attempt_injected {operation : String} {call : State → Answer State α}
    (failed : fails rate (next first.generator) = true) :
    attempt rate operation call first = (.error (injected operation),
      ⟨first.inner, next first.generator, first.operations + 1, first.failures + 1⟩) := by
  unfold attempt
  simp only [failed, if_true]

theorem attempt_passed {operation : String} {call : State → Answer State α}
    (failed : fails rate (next first.generator) = false) :
    attempt rate operation call first = ((call first.inner).1,
      ⟨(call first.inner).2, next first.generator, first.operations + 1, first.failures⟩) := by
  unfold attempt
  simp only [failed, Bool.false_eq_true, if_false]

theorem ask_injected (query : Query) (failed : fails rate (next first.generator) = true) :
    query.ask (faulty rate store) clock first = (refusal query,
      ⟨first.inner, next first.generator, first.operations + 1, first.failures + 1⟩) := by
  cases query with
  | get id => rw [Query.ask, faulty_get, attempt_injected failed]; rfl
  | put id secret => rw [Query.ask, faulty_put, attempt_injected failed]; rfl
  | delete id => rw [Query.ask, faulty_delete, attempt_injected failed]; rfl
  | status id => rw [Query.ask, faulty_status, attempt_injected failed]; rfl
  | purge => rw [Query.ask, faulty_purge, attempt_injected failed]; rfl

theorem ask_passed (query : Query) (failed : fails rate (next first.generator) = false) :
    query.ask (faulty rate store) clock first = ((query.ask store clock first.inner).1,
      ⟨(query.ask store clock first.inner).2, next first.generator, first.operations + 1,
        first.failures⟩) := by
  cases query with
  | get id => rw [Query.ask, faulty_get, attempt_passed failed]; rfl
  | put id secret => rw [Query.ask, faulty_put, attempt_passed failed]; rfl
  | delete id => rw [Query.ask, faulty_delete, attempt_passed failed]; rfl
  | status id => rw [Query.ask, faulty_status, attempt_passed failed]; rfl
  | purge => rw [Query.ask, faulty_purge, attempt_passed failed]; rfl

/-- A run of the faulty store against one of the store inside, from which the marked calls are left
out. -/
structure LeavesOut (store : Store State) (calls : List (Clock × Query)) (marks : List Bool)
    (first : Faulty State) (reports : List Report) (last : Faulty State) : Prop where
  inside : askAll store (marked false calls marks) first.inner =
    (marked false reports marks, last.inner)
  refused : marked true reports marks =
    (marked true calls marks).map fun call => refusal call.2
  operations : last.operations = first.operations + calls.length
  failures : last.failures = first.failures + marks.count true

variable {rest : List (Clock × Query)} {marks : List Bool} {query : Query}
  {reports : List Report} {last : Faulty State}

theorem LeavesOut.injected {drawn : Nat}
    (run : LeavesOut store rest marks
      ⟨first.inner, drawn, first.operations + 1, first.failures + 1⟩ reports last) :
    LeavesOut store ((clock, query) :: rest) (true :: marks) first (refusal query :: reports)
      last := by
  obtain ⟨inside, refused, operations, failures⟩ := run
  refine ⟨?_, ?_, ?_, ?_⟩
  · rw [marked_cons_other (by decide), marked_cons_other (by decide), inside]
  · rw [marked_cons_same, marked_cons_same, refused, List.map_cons]
  · rw [operations, List.length_cons]
    exact Nat.add_right_comm _ 1 _
  · rw [failures, List.count_cons_self]
    exact Nat.add_right_comm _ 1 _

theorem LeavesOut.passed {drawn : Nat}
    (run : LeavesOut store rest marks
      ⟨(query.ask store clock first.inner).2, drawn, first.operations + 1, first.failures⟩ reports
      last) :
    LeavesOut store ((clock, query) :: rest) (false :: marks) first
      ((query.ask store clock first.inner).1 :: reports) last := by
  obtain ⟨inside, refused, operations, failures⟩ := run
  have onward : askAll store (marked false rest marks) (query.ask store clock first.inner).2 =
      (marked false reports marks, last.inner) := inside
  refine ⟨?_, ?_, ?_, ?_⟩
  · rw [marked_cons_same, marked_cons_same, askAll_cons, onward]
  · rw [marked_cons_other (by decide), marked_cons_other (by decide), refused]
  · rw [operations, List.length_cons]
    exact Nat.add_right_comm _ 1 _
  · rw [failures, List.count_cons_of_ne (by decide)]

variable (rate store) in
theorem askAll_faulty (calls : List (Clock × Query)) (first : Faulty State) :
    LeavesOut store calls (injections rate first.generator calls.length) first
      (askAll (faulty rate store) calls first).1 (askAll (faulty rate store) calls first).2 := by
  induction calls generalizing first with
  | nil => exact ⟨rfl, rfl, rfl, rfl⟩
  | cons call rest ih =>
      obtain ⟨clock, query⟩ := call
      rw [List.length_cons, injections_succ, askAll_cons]
      cases failed : fails rate (next first.generator) with
      | true =>
          rw [ask_injected query failed]
          exact (ih _).injected
      | false =>
          rw [ask_passed query failed]
          exact (ih _).passed

/-- The generator picks the calls that fail. The others are answered as the store inside answers
them when it is asked nothing else, and it ends where it would end then. -/
theorem faults_leave_calls_out (rate : Rat) (store : Store State) (seed : Nat) (state : State)
    (calls : List (Clock × Query)) :
    let marks := injections rate seed calls.length
    let run := askAll (faulty rate store) calls (start seed state)
    askAll store (marked false calls marks) state = (marked false run.1 marks, run.2.inner) ∧
      marked true run.1 marks = (marked true calls marks).map (fun call => refusal call.2) ∧
      run.2.operations = calls.length ∧ run.2.failures = marks.count true := by
  intro marks run
  obtain ⟨inside, refused, operations, failures⟩ :=
    askAll_faulty rate store calls (start seed state)
  refine ⟨inside, refused, ?_, ?_⟩
  · exact operations.trans (Nat.zero_add _)
  · exact failures.trans (Nat.zero_add _)

end Run

end Faulty

end DeadDrop.Store
