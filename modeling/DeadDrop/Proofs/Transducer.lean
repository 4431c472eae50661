import DeadDrop.Transducer

/-!
A machine computes a function if its output is the function of all its input in one piece, however
the input was cut into chunks. Composition of machines is composition of what they compute. To see
what a machine computes it is enough to say what is still to come from each state for each rest of
the input.
-/

namespace DeadDrop.Transducer

variable {In Mid Out : Type}

/-- What comes after the opening, chunk by chunk and at the close. -/
def pieces (machine : Transducer In Out) : machine.State → List (List In) → List (List Out)
  | state, [] => [machine.close state]
  | state, chunk :: rest =>
      (machine.feed state chunk).2 :: machine.pieces (machine.feed state chunk).1 rest

theorem feedAll_eq_pieces (machine : Transducer In Out) (state : machine.State)
    (done : List (List Out)) (chunks : List (List In)) :
    (machine.close (machine.feedAll state done chunks).1 ::
        (machine.feedAll state done chunks).2).reverse =
      done.reverse ++ machine.pieces state chunks := by
  induction chunks generalizing state done with
  | nil => simp [feedAll, pieces]
  | cons chunk rest ih =>
      simp only [feedAll, ih, pieces, List.reverse_cons, List.append_assoc, List.cons_append,
        List.nil_append]

theorem feedAll_concat (machine : Transducer In Out) (state : machine.State)
    (done : List (List Out)) (chunks : List (List In)) (chunk : List In) :
    (machine.feedAll state done (chunks ++ [chunk])).1 =
      (machine.feed (machine.feedAll state done chunks).1 chunk).1 := by
  induction chunks generalizing state done with
  | nil => rfl
  | cons first rest ih => exact ih _ _

theorem run_eq_pieces (machine : Transducer In Out) (chunks : List (List In)) :
    machine.run chunks = machine.opening ++ (machine.pieces machine.start chunks).flatten := by
  have same := feedAll_eq_pieces machine machine.start [machine.opening] chunks
  simp only [run, same, List.reverse_singleton, List.singleton_append, List.flatten_cons]

def Computes (machine : Transducer In Out) (value : List In → List Out) : Prop :=
  ∀ chunks, machine.run chunks = value chunks.flatten

theorem run_preceded (first : List In) (machine : Transducer In Out) (chunks : List (List In)) :
    (machine.preceded first).run chunks = machine.run (first :: chunks) := by
  have same (state : machine.State) :
      (machine.preceded first).pieces state chunks = machine.pieces state chunks := by
    induction chunks generalizing state with
    | nil => rfl
    | cons chunk rest ih => exact congrArg _ (ih _)
  rw [run_eq_pieces, run_eq_pieces]
  simp only [pieces, List.flatten_cons]
  exact (congrArg _ (congrArg _ (same _))).trans (List.append_assoc _ _ _)

theorem Computes.preceded {machine : Transducer In Out} {value : List In → List Out}
    (computes : machine.Computes value) (first : List In) :
    (machine.preceded first).Computes fun input => value (first ++ input) := by
  intro chunks
  rw [run_preceded, computes, List.flatten_cons]

-- The second machine takes the opening of the first as a chunk of its own, and so its close.
theorem run_into (first : Transducer In Mid) (second : Transducer Mid Out)
    (chunks : List (List In)) :
    (first.into second).run chunks =
      second.run (first.opening :: first.pieces first.start chunks) := by
  have same (left : first.State) (right : second.State) :
      ((first.into second).pieces (left, right) chunks).flatten =
        (second.pieces right (first.pieces left chunks)).flatten := by
    induction chunks generalizing left right with
    | nil => simp [pieces, into]
    | cons chunk rest ih =>
        simp only [pieces, List.flatten_cons]
        exact congrArg _ (ih _ _)
  rw [run_eq_pieces, run_eq_pieces]
  simp only [pieces, List.flatten_cons]
  exact (congrArg _ (same _ _)).trans (List.append_assoc _ _ _)

theorem Computes.into {first : Transducer In Mid} {second : Transducer Mid Out}
    {value : List In → List Mid} {other : List Mid → List Out} (left : first.Computes value)
    (right : second.Computes other) :
    (first.into second).Computes fun input => other (value input) := by
  intro chunks
  rw [run_into, right, List.flatten_cons, ← run_eq_pieces, left]

/-- What is `ahead` of a state, given the rest of the input: a feed takes it from the front, and
the close is all of it. Only states that occur count. -/
theorem computes_of_ahead (machine : Transducer In Out) (occurs : machine.State → Prop)
    (ahead : machine.State → List In → List Out) (start : occurs machine.start)
    (feed : ∀ state chunk, occurs state → occurs (machine.feed state chunk).1)
    (fed : ∀ state chunk rest, occurs state → ahead state (chunk ++ rest) =
      (machine.feed state chunk).2 ++ ahead (machine.feed state chunk).1 rest)
    (close : ∀ state, occurs state → ahead state [] = machine.close state) :
    machine.Computes fun input => machine.opening ++ ahead machine.start input := by
  intro chunks
  have all (state : machine.State) (sound : occurs state) :
      (machine.pieces state chunks).flatten = ahead state chunks.flatten := by
    induction chunks generalizing state with
    | nil => simp [pieces, close state sound]
    | cons chunk rest ih =>
        rw [pieces, List.flatten_cons, List.flatten_cons, ih _ (feed state chunk sound),
          fed state chunk _ sound]
  rw [run_eq_pieces, all _ start]

end DeadDrop.Transducer
