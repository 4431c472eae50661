import DeadDrop.Store.Basic

/-!
Stores in bad company: one from which nothing can be removed, and one where another reader is
always faster.
-/

namespace DeadDrop.Store

variable {State : Type}

/-- Deletes fail for the given reason, and purging does nothing. -/
def stuck (reason : String) (store : Store State) : Store State :=
  { store with
    delete := fun _ _ state => (.error (.io reason), state)
    purge := fun _ state => (.ok 0, state) }

/-- Whatever is read is gone when the reader wants to remove it. -/
def raced (store : Store State) : Store State :=
  { store with
    get := fun clock id state =>
      match store.get clock id state with
      | (.ok secret, state) => (.ok secret, (store.delete clock id state).2)
      | (.error error, state) => (.error error, state) }

end DeadDrop.Store
