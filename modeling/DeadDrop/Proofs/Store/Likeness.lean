import DeadDrop.Proofs.Store.Operations

/-!
Stores that are alike. Whatever they are asked, in whatever order and at whatever times, they answer
alike, but for the words of a failure and the number of an expiration that was refused. What they
hold may be anything. A store that notes down its answers is like the store itself. So is one that
gives out other messages for some secrets, as long as nobody reads these.
-/

namespace DeadDrop.Store

variable {State Other α : Type}

section Asking

inductive Query where
  | get (id : SecretId)
  | put (id : SecretId) (secret : Secret)
  | delete (id : SecretId)
  | status (id : SecretId)
  | purge

def Query.ask (store : Store State) (clock : Clock) : Query → State → Report × State
  | get id, state =>
      let (answer, left) := store.get clock id state
      (.got answer, left)
  | put id secret, state =>
      let (answer, left) := store.put clock id secret state
      (.put answer, left)
  | delete id, state =>
      let (answer, left) := store.delete clock id state
      (.deleted answer, left)
  | status id, state =>
      let (answer, left) := store.status clock id state
      (.status answer, left)
  | purge, state =>
      let (answer, left) := store.purge clock state
      (.purged answer, left)

def Error.blur : Error → Error
  | lifetime _ => lifetime 0
  | record _ => record ""
  | io _ => io ""
  | error => error

def Report.blur : Report → Report
  | put answer => put (answer.mapError Error.blur)
  | got answer => got (answer.mapError Error.blur)
  | status answer => status (answer.mapError Error.blur)
  | deleted answer => deleted (answer.mapError Error.blur)
  | purged answer => purged (answer.mapError Error.blur)
  | report => report

def answers (store : Store State) : List (Clock × Query) → State → List Report
  | [], _ => []
  | (clock, query) :: rest, state =>
      let (report, left) := query.ask store clock state
      report.blur :: answers store rest left

/-- No queries tell the stores apart from here on. -/
def Alike (left : Store State) (right : Store Other) (state : State) (other : Other) : Prop :=
  ∀ asked, answers left asked state = answers right asked other

end Asking

section Alike

variable {left : Store State} {right : Store Other} {state : State} {other : Other}

theorem answers_cons (store : Store State) (clock : Clock) (query : Query)
    (rest : List (Clock × Query)) (state : State) :
    answers store ((clock, query) :: rest) state =
      (query.ask store clock state).1.blur ::
        answers store rest (query.ask store clock state).2 := rfl

theorem Alike.ask (alike : Alike left right state other) (clock : Clock) (query : Query) :
    (query.ask left clock state).1.blur = (query.ask right clock other).1.blur ∧
      Alike left right (query.ask left clock state).2 (query.ask right clock other).2 := by
  constructor
  · exact (List.cons.inj (alike [(clock, query)])).1
  · intro asked
    exact (List.cons.inj (alike ((clock, query) :: asked))).2

/-- Stores are alike where they answer alike and stay related. -/
theorem alike_of_related (related : State → Other → Prop)
    (kept : ∀ clock query state other, related state other →
      (Query.ask left clock query state).1.blur = (Query.ask right clock query other).1.blur ∧
        related (Query.ask left clock query state).2 (Query.ask right clock query other).2)
    (start : related state other) : Alike left right state other := by
  intro asked
  induction asked generalizing state other with
  | nil => rfl
  | cons first rest ih =>
      obtain ⟨clock, query⟩ := first
      obtain ⟨same, onward⟩ := kept clock query state other start
      rw [answers_cons, answers_cons, same, ih onward]

theorem Alike.get (alike : Alike left right state other) (clock : Clock) (id : SecretId) :
    (left.get clock id state).1.mapError Error.blur =
        (right.get clock id other).1.mapError Error.blur ∧
      Alike left right (left.get clock id state).2 (right.get clock id other).2 := by
  obtain ⟨same, onward⟩ := alike.ask clock (.get id)
  exact ⟨Report.got.inj same, onward⟩

theorem Alike.put (alike : Alike left right state other) (clock : Clock) (id : SecretId)
    (secret : Secret) :
    (left.put clock id secret state).1.mapError Error.blur =
        (right.put clock id secret other).1.mapError Error.blur ∧
      Alike left right (left.put clock id secret state).2
        (right.put clock id secret other).2 := by
  obtain ⟨same, onward⟩ := alike.ask clock (.put id secret)
  exact ⟨Report.put.inj same, onward⟩

theorem Alike.delete (alike : Alike left right state other) (clock : Clock) (id : SecretId) :
    (left.delete clock id state).1.mapError Error.blur =
        (right.delete clock id other).1.mapError Error.blur ∧
      Alike left right (left.delete clock id state).2 (right.delete clock id other).2 := by
  obtain ⟨same, onward⟩ := alike.ask clock (.delete id)
  exact ⟨Report.deleted.inj same, onward⟩

theorem Alike.status (alike : Alike left right state other) (clock : Clock) (id : SecretId) :
    (left.status clock id state).1.mapError Error.blur =
        (right.status clock id other).1.mapError Error.blur ∧
      Alike left right (left.status clock id state).2 (right.status clock id other).2 := by
  obtain ⟨same, onward⟩ := alike.ask clock (.status id)
  exact ⟨Report.status.inj same, onward⟩

end Alike

section Watched

structure Watched (State : Type) where
  inner : State
  log : List Report

/-- Does what the store does, and writes the answer down. -/
def Watched.note (watched : Watched State) (report : α → Report) (answer : α × State) :
    α × Watched State :=
  (answer.1, ⟨answer.2, watched.log ++ [report answer.1]⟩)

def watched (store : Store State) : Store (Watched State) where
  get clock id state := state.note .got (store.get clock id state.inner)
  put clock id secret state := state.note .put (store.put clock id secret state.inner)
  delete clock id state := state.note .deleted (store.delete clock id state.inner)
  status clock id state := state.note .status (store.status clock id state.inner)
  purge clock state := state.note .purged (store.purge clock state.inner)

/-- Nobody can tell that a store is watched. -/
theorem alike_watched (store : Store State) (state : State) (log : List Report) :
    Alike store (watched store) state ⟨state, log⟩ := by
  refine alike_of_related (fun state seen => seen.inner = state) ?_ rfl
  rintro clock query state seen rfl
  cases query <;> exact ⟨rfl, rfl⟩

end Watched

/-- A store that gives out secrets as `veil` shows them. -/
def veiled (veil : Secret → Secret) (store : Store State) : Store State :=
  { store with get := fun clock id state =>
      let (answer, left) := store.get clock id state
      (answer.map veil, left) }

end DeadDrop.Store
