import Mathlib.Data.List.Forall2

/-!
Machines that take one input at a time, answer it and move on. A machine may also stop, and then
the run has no outcome. Two machines that move in lockstep answer alike; inputs that leave a
machine where it was may be left out of a run; what every step keeps holds at the end.
-/

namespace DeadDrop

variable {Input Output State Other : Type}

def replay (step : Input → State → Option (Output × State)) :
    List Input → State → Option (List Output × State)
  | [], state => some ([], state)
  | input :: rest, state =>
      match step input state with
      | none => none
      | some (output, next) =>
          match replay step rest next with
          | none => none
          | some (outputs, last) => some (output :: outputs, last)

/-- The answers of a run that somebody looks at. -/
def outcome (step : Input → State → Option (Output × State)) (looks : Output → Bool)
    (inputs : List Input) (state : State) : Option (List Output) :=
  (replay step inputs state).map fun run => run.1.filter looks

theorem outcome_cons (step : Input → State → Option (Output × State)) (looks : Output → Bool)
    (input : Input) (rest : List Input) (state : State) :
    outcome step looks (input :: rest) state =
      match step input state with
      | none => none
      | some (output, next) =>
          (outcome step looks rest next).map fun outputs =>
            if looks output then output :: outputs else outputs := by
  rw [outcome, replay]
  cases step input state with
  | none => rfl
  | some moved =>
      obtain ⟨output, next⟩ := moved
      cases ran : replay step rest next with
      | none => simp [ran, outcome]
      | some run => simp [ran, outcome, List.filter_cons]

theorem replay_cons_eq_some {step : Input → State → Option (Output × State)} {input : Input}
    {rest : List Input} {state last : State} {outputs : List Output} :
    replay step (input :: rest) state = some (outputs, last) ↔
      ∃ output next later, step input state = some (output, next) ∧
        replay step rest next = some (later, last) ∧ outputs = output :: later := by
  rw [replay]
  cases step input state with
  | none => simp
  | some moved =>
      obtain ⟨output, next⟩ := moved
      cases ran : replay step rest next with
      | none => simp [ran]
      | some run =>
          obtain ⟨later, final⟩ := run
          constructor
          · intro same
            simp only [ran, Option.some.injEq, Prod.mk.injEq] at same
            obtain ⟨rfl, rfl⟩ := same
            exact ⟨output, next, later, rfl, ran, rfl⟩
          · rintro ⟨_, _, _, moved, again, rfl⟩
            cases moved
            rw [ran] at again
            cases again
            simp [ran]

/-- One step of each machine: both stop, or they answer alike as far as anybody looks and stay
related. -/
inductive Lockstep (related : State → Other → Prop) (looks : Output → Bool) :
    Option (Output × State) → Option (Output × Other) → Prop where
  | stopped : Lockstep related looks none none
  | moved {left right : Output} {state : State} {other : Other} :
      related state other → (left = right ∨ looks left = false ∧ looks right = false) →
      Lockstep related looks (some (left, state)) (some (right, other))

theorem Lockstep.blinder {related : State → Other → Prop} {looks sees : Output → Bool}
    {left : Option (Output × State)} {right : Option (Output × Other)}
    (step : Lockstep related looks left right)
    (blind : ∀ output, looks output = false → sees output = false) :
    Lockstep related sees left right := by
  cases step with
  | stopped => exact .stopped
  | moved next same =>
      rcases same with alike | ⟨unseen, unseen'⟩
      · exact .moved next (Or.inl alike)
      · exact .moved next (Or.inr ⟨blind _ unseen, blind _ unseen'⟩)

/-- The relation may depend on the inputs that are still to come. -/
theorem outcome_lockstep_ahead {related : List Input → State → Other → Prop}
    {looks : Output → Bool} {left : Input → State → Option (Output × State)}
    {right : Input → Other → Option (Output × Other)}
    (together : ∀ input rest state other, related (input :: rest) state other →
      Lockstep (related rest) looks (left input state) (right input other))
    (inputs : List Input) (state : State) (other : Other) (start : related inputs state other) :
    outcome left looks inputs state = outcome right looks inputs other := by
  induction inputs generalizing state other with
  | nil => rfl
  | cons input rest ih =>
      rw [outcome_cons, outcome_cons]
      have both := together input rest state other start
      -- Only how the two steps end matters from here, so the relation can be taken apart.
      generalize left input state = one at both
      generalize right input other = two at both
      cases both with
      | stopped => rfl
      | moved next same =>
          have tails := ih _ _ next
          rcases same with rfl | ⟨unseen, unseen'⟩
          · simp only [tails]
          · simp [tails, unseen, unseen']

theorem outcome_lockstep {related : State → Other → Prop} {looks : Output → Bool}
    {left : Input → State → Option (Output × State)}
    {right : Input → Other → Option (Output × Other)}
    (together : ∀ input state other, related state other →
      Lockstep related looks (left input state) (right input other))
    (inputs : List Input) (state : State) (other : Other) (start : related state other) :
    outcome left looks inputs state = outcome right looks inputs other :=
  outcome_lockstep_ahead (fun input _ state other both => together input state other both)
    inputs state other start

/-- A machine that never stops as long as something holds has an outcome if it holds. -/
theorem outcome_of_runs (running : List Input → State → Prop) {looks : Output → Bool}
    {step : Input → State → Option (Output × State)}
    (runs : ∀ input rest state, running (input :: rest) state →
      ∃ output next, step input state = some (output, next) ∧ running rest next)
    (inputs : List Input) (state : State) (start : running inputs state) :
    ∃ outputs, outcome step looks inputs state = some outputs := by
  induction inputs generalizing state with
  | nil => exact ⟨[], rfl⟩
  | cons input rest ih =>
      obtain ⟨output, next, moved, onward⟩ := runs input rest state start
      obtain ⟨outputs, later⟩ := ih next onward
      rw [outcome_cons, moved]
      simp only [later, Option.map_some]
      exact ⟨_, rfl⟩

/-- Inputs that nobody looks at and that change nothing do not show. -/
theorem outcome_skip {looks : Output → Bool} {step : Input → State → Option (Output × State)}
    {skipped : Input → Bool}
    (idle : ∀ input state, skipped input = true →
      ∃ output, step input state = some (output, state) ∧ looks output = false)
    (inputs : List Input) (state : State) :
    outcome step looks inputs state =
      outcome step looks (inputs.filter fun input => !skipped input) state := by
  induction inputs generalizing state with
  | nil => rfl
  | cons input rest ih =>
      by_cases quiet : skipped input = true
      · obtain ⟨output, stayed, unseen⟩ := idle input state quiet
        rw [outcome_cons, stayed, List.filter_cons]
        simp [quiet, unseen, ih state]
      · rw [List.filter_cons, if_pos (by simp [quiet]), outcome_cons, outcome_cons]
        cases step input state with
        | none => rfl
        | some moved => simp [ih moved.2]

theorem replay_cons (step : Input → State → Option (Output × State)) (input : Input)
    (rest : List Input) (state : State) :
    replay step (input :: rest) state =
      (step input state).bind fun moved =>
        (replay step rest moved.2).map fun run => (moved.1 :: run.1, run.2) := by
  rw [replay]
  cases step input state with
  | none => rfl
  | some moved =>
      cases ran : replay step rest moved.2 <;> simp [ran]

section Views

variable {View : Type} {step : Input → State → Option (Output × State)}

def watch (step : Input → State → Option (Output × State)) (view : Output → View)
    (inputs : List Input) (state : State) : Option (List View × State) :=
  (replay step inputs state).map (Prod.map (List.map view) id)

theorem watch_cons (view : Output → View) (input : Input) (rest : List Input) (state : State) :
    watch step view (input :: rest) state =
      ((step input state).map (Prod.map view id)).bind fun moved =>
        (watch step view rest moved.2).map fun run => (moved.1 :: run.1, run.2) := by
  rw [watch, replay_cons]
  cases step input state with
  | none => rfl
  | some moved =>
      simp only [Option.map_some, Option.bind_some, Option.map_map, watch]
      rfl

/-- Inputs may be exchanged for others that look the same and lead to the same. -/
theorem watch_exchanged {view : Output → View} {alike : Input → Input → Prop}
    (same : ∀ input other state, alike input other →
      (step input state).map (Prod.map view id) = (step other state).map (Prod.map view id))
    {inputs others : List Input} (exchanged : List.Forall₂ alike inputs others) (state : State) :
    watch step view inputs state = watch step view others state := by
  induction exchanged generalizing state with
  | nil => rfl
  | cons here later ih =>
      rw [watch_cons, watch_cons, same _ _ state here]
      simp only [ih]

end Views

section Turning

/-- The answers of a machine that turns some inputs away, from those of one that does not and is
given the other inputs only. -/
def fill (turned : Input → Bool) (refusal : Input → Output) (retold : Output → Output) :
    List Input → List Output → List Output
  | [], _ => []
  | input :: rest, outputs =>
      if turned input then refusal input :: fill turned refusal retold rest outputs
      else
        match outputs with
        | [] => []
        | output :: later => retold output :: fill turned refusal retold rest later

theorem replay_filled {turned : Input → Bool} {refusal : Input → Output}
    {retold : Output → Output} {narrow wide : Input → State → Option (Output × State)}
    (away : ∀ input state, turned input = true →
      narrow input state = some (refusal input, state))
    (through : ∀ input state, turned input = false →
      narrow input state = (wide input state).map (Prod.map retold id))
    (inputs : List Input) (state : State) :
    replay narrow inputs state =
      (replay wide (inputs.filter fun input => !turned input) state).map
        (Prod.map (fill turned refusal retold inputs) id) := by
  induction inputs generalizing state with
  | nil => rfl
  | cons input rest ih =>
      cases refused : turned input with
      | true =>
          have skipped : (input :: rest).filter (fun input => !turned input) =
              rest.filter fun input => !turned input := by
            rw [List.filter_cons, if_neg (by simp [refused])]
          rw [skipped, replay_cons, away input state refused]
          simp only [Option.bind_some, ih, Option.map_map]
          congr 1
          funext ⟨outputs, last⟩
          simp [fill, refused]
      | false =>
          have kept : (input :: rest).filter (fun input => !turned input) =
              input :: rest.filter fun input => !turned input := by
            rw [List.filter_cons, if_pos (by simp [refused])]
          rw [kept, replay_cons, replay_cons, through input state refused]
          cases wide input state with
          | none => rfl
          | some moved =>
              simp only [Option.map_some, Option.bind_some, ih, Option.map_map, Prod.map_snd, id_eq]
              congr 1
              funext ⟨outputs, last⟩
              simp [fill, refused]

end Turning

-- The invariant sees the answers given so far, so it may relate the state to the past.
theorem replay_invariant {step : Input → State → Option (Output × State)}
    {invariant : List Output → State → Prop}
    (kept : ∀ past input state output next, invariant past state →
      step input state = some (output, next) → invariant (past ++ [output]) next)
    (inputs : List Input) (past : List Output) (state : State) (start : invariant past state)
    {outputs : List Output} {last : State}
    (ran : replay step inputs state = some (outputs, last)) :
    invariant (past ++ outputs) last := by
  induction inputs generalizing past state outputs with
  | nil =>
      cases ran
      simpa using start
  | cons input rest ih =>
      obtain ⟨output, next, later, moved, ran', rfl⟩ := replay_cons_eq_some.mp ran
      have onward := ih (past ++ [output]) next (kept past input state output next start moved) ran'
      simpa using onward

theorem countP_le_one {α : Type} {happens : α → Bool} {events : List α}
    (last : ∀ before event later, events = before ++ event :: later → happens event = true →
      ∀ other ∈ later, happens other = false) :
    events.countP happens ≤ 1 := by
  induction events with
  | nil => simp
  | cons event rest ih =>
      have tail : rest.countP happens ≤ 1 := by
        apply ih
        intro before other later split
        exact last (event :: before) other later (by rw [split, List.cons_append])
      cases first : happens event with
      | false => simpa [first] using tail
      | true =>
          have never := last [] event rest rfl first
          have none : rest.countP happens = 0 := by
            rw [List.countP_eq_zero]
            intro other member
            simp [never other member]
          simp [first, none]

end DeadDrop
