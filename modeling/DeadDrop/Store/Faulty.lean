import DeadDrop.Decimal.Shortest
import DeadDrop.Store.Basic

/-!
A store that fails now and then. Before each operation a generator modulo 2^32 moves on; when its
state, as a fraction of 2^32, lies below the rate, the operation fails and never reaches the
store inside.
-/

namespace DeadDrop.Store

structure Faulty (Inner : Type) where
  inner : Inner
  generator : Nat
  operations : Nat
  failures : Nat
  deriving DecidableEq

namespace Faulty

variable {Inner : Type}

def modulus : Nat := UInt32.size

def defaultSeed : Nat := 0x5EC2E7F00D15EA5E

def next (state : Nat) : Nat := (1664525 * state + 1013904223) % modulus

def start (seed : Nat) (inner : Inner) : Faulty Inner := ⟨inner, seed, 0, 0⟩

def fails (rate : Rat) (state : Nat) : Bool := (state : Rat) < rate * modulus

def injected (operation : String) : Error :=
  .io ("chaotic failure injection (" ++ operation ++ ")")

def attempt {α : Type} (rate : Rat) (operation : String) (call : Inner → Answer Inner α)
    (faulty : Faulty Inner) : Answer (Faulty Inner) α :=
  let state := next faulty.generator
  let operations := faulty.operations + 1
  if fails rate state then
    (.error (injected operation), ⟨faulty.inner, state, operations, faulty.failures + 1⟩)
  else
    let (answer, inner) := call faulty.inner
    (answer, ⟨inner, state, operations, faulty.failures⟩)

end Faulty

def faulty {Inner : Type} (rate : Rat) (store : Store Inner) : Store (Faulty Inner) where
  get clock id := Faulty.attempt rate "get" (store.get clock id)
  put clock id secret := Faulty.attempt rate "put" (store.put clock id secret)
  delete clock id := Faulty.attempt rate "delete" (store.delete clock id)
  status clock id := Faulty.attempt rate "status" (store.status clock id)
  purge clock := Faulty.attempt rate "purge_expired" (store.purge clock)

section Rate

open Decimal

def exactRate (x : Float) : Rat :=
  match decode x with
  | .finite value =>
      let size := (value.mantissa : Rat) * (2 : Rat) ^ value.exponent
      if signOf x then -size else size
  | _ => 0

def rateOf (x : Float) : Except String Rat :=
  if 0.0 ≤ x ∧ x ≤ 1.0 then .ok (exactRate x)
  else .error ("failure_rate must be between 0.0 and 1.0, got " ++ plain.text x)

end Rate

end DeadDrop.Store
