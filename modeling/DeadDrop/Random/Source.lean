import DeadDrop.Bytes

/-!
Where fresh identifiers and keys come from: a state that yields any number of octets on demand
and moves on.
-/

namespace DeadDrop.Random

structure Source (State : Type) where
  draw : State → (size : Nat) → Sized size × State

end DeadDrop.Random
