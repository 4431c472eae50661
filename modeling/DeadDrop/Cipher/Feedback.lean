import DeadDrop.Bytes

/-!
Cipher feedback over any block function. Each octet is combined with one octet of pad; a full
block of ciphertext, or sixteen zeros at the start, yields the next block of pad. The stream
moves octet by octet, so it continues across chunks however they are cut.
-/

namespace DeadDrop.Cipher

inductive Direction where
  | encrypt
  | decrypt
  deriving DecidableEq

def blockSize : Nat := 16

/-- The unused rest of the current block, `pad`, and its ciphertext so far, `fed`, newest
first. -/
structure Feedback where
  pad : Bytes
  fed : Bytes
  deriving DecidableEq

namespace Feedback

def start : Feedback := ⟨[], List.replicate blockSize 0⟩

def refill (block : Bytes → Bytes) (state : Feedback) : Feedback :=
  match state.pad with
  | [] => ⟨block state.fed.reverse, []⟩
  | _ :: _ => state

def step (block : Bytes → Bytes) (direction : Direction) (state : Feedback) (octet : UInt8) :
    Feedback × UInt8 :=
  let ready := state.refill block
  let mixed := octet ^^^ ready.pad.headD 0
  let sent := match direction with
    | .encrypt => mixed
    | .decrypt => octet
  (⟨ready.pad.tail, sent :: ready.fed⟩, mixed)

def apply (block : Bytes → Bytes) (direction : Direction) (state : Feedback) (chunk : Bytes) :
    Feedback × Bytes :=
  let (last, reversed) := chunk.foldl
    (fun (current, done) octet =>
      let (next, mixed) := step block direction current octet
      (next, mixed :: done))
    (state, [])
  (last, reversed.reverse)

def applyAll (block : Bytes → Bytes) (direction : Direction) :
    Feedback → List Bytes → List Bytes
  | _, [] => []
  | state, chunk :: rest =>
      let (next, out) := state.apply block direction chunk
      out :: applyAll block direction next rest

end Feedback

end DeadDrop.Cipher
