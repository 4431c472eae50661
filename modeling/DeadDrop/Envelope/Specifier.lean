import DeadDrop.Digest.Algorithm
import DeadDrop.Packet.Cursor

/-!
How a passphrase becomes a key. A specifier names a digest and, by its kind, a salt and a count
of octets to digest. Each block of the key is a digest of some zeros, one more than for the block
before, and then of the material: the passphrase, the salted passphrase, or so many octets of the
salted passphrase repeated. Repetitions are absorbed many at a time.
-/

namespace DeadDrop.Envelope

open Packet (Cursor)

abbrev Salt := Sized 8

inductive Specifier where
  | simple (hash : Digest.Algorithm)
  | salted (hash : Digest.Algorithm) (salt : Salt)
  | iterated (hash : Digest.Algorithm) (salt : Salt) (count : UInt8)
  deriving DecidableEq

namespace Specifier

def defaultCount : UInt8 := 0x60

def standard (salt : Salt) : Specifier := .iterated .sha256 salt defaultCount

def hash : Specifier → Digest.Algorithm
  | simple hash | salted hash _ | iterated hash _ _ => hash

/-- A count octet is a four-bit mantissa over sixteen and a four-bit exponent. -/
def decodeCount (coded : UInt8) : Nat :=
  (16 + coded.toNat % 16) <<< (coded.toNat / 16 + 6)

def write : Specifier → Bytes
  | simple hash => [0, hash.number]
  | salted hash salt => 1 :: hash.number :: salt.val
  | iterated hash salt count => 3 :: hash.number :: salt.val ++ [count]

def readSalt (cursor : Cursor) : Except Error (Salt × Cursor) :=
  match Sized.ofBytes? 8 (cursor.rest.take 8) with
  | some salt => .ok (salt, ⟨cursor.rest.drop 8⟩)
  | none => .error (.malformed (.truncated 8))

def readHash (cursor : Cursor) : Except Error (Digest.Algorithm × Cursor) := do
  let (number, cursor) ← cursor.octet
  match Digest.Algorithm.ofNumber? number with
  | some hash => return (hash, cursor)
  | none => .error (.unsupported (.digest number))

def read (cursor : Cursor) : Except Error (Specifier × Cursor) := do
  let (kind, cursor) ← cursor.octet
  let (hash, cursor) ← readHash cursor
  if kind = 0 then return (.simple hash, cursor)
  else if kind = 1 then
    let (salt, cursor) ← readSalt cursor
    return (.salted hash salt, cursor)
  else if kind = 3 then
    let (salt, cursor) ← readSalt cursor
    let (count, cursor) ← cursor.octet
    return (.iterated hash salt count, cursor)
  else .error (.unsupported (.specifier kind))

section Derive

variable (digest : Digest)

def batchSize : Nat := 8192

/-- As many repetitions as fit a batch, and one if it is longer than that. -/
def batchOf (material : Bytes) : Bytes :=
  (List.replicate (max (batchSize / material.length) 1) material).flatten

/-- Whole batches while there is so much left to absorb, then the front of one. -/
def absorbBatches (batch : Bytes) (filled : 0 < batch.length) (remaining : Nat)
    (state : digest.State) : digest.State :=
  if batch.length ≤ remaining then
    absorbBatches batch filled (remaining - batch.length) (digest.absorbAll state batch)
  else digest.absorbAll state (batch.take remaining)
termination_by remaining

theorem length_batchOf (material : Bytes) :
    (batchOf material).length = max (batchSize / material.length) 1 * material.length := by
  rw [batchOf, List.length_flatten, List.map_replicate, List.sum_replicate_nat]

theorem length_batchOf_pos {material : Bytes} (filled : material ≠ []) :
    0 < (batchOf material).length := by
  rw [length_batchOf]
  have whole := Nat.le_max_right (batchSize / material.length) 1
  exact Nat.mul_pos whole (List.length_pos_iff.mpr filled)

def absorbRepeated (material : Bytes) (total : Nat) (state : digest.State) : digest.State :=
  if empty : material = [] then state
  else absorbBatches digest (batchOf material) (length_batchOf_pos empty) total state

def absorbMaterial (specifier : Specifier) (passphrase : Bytes) (state : digest.State) :
    digest.State :=
  match specifier with
  | simple _ => digest.absorbAll state passphrase
  | salted _ salt => digest.absorbAll state (salt.val ++ passphrase)
  | iterated _ salt count =>
      let material := salt.val ++ passphrase
      absorbRepeated digest material (max (decodeCount count) material.length) state

def keyBlock (specifier : Specifier) (passphrase : Bytes) (zeros : Nat) : Bytes :=
  digest.finish (absorbMaterial digest specifier passphrase
    (digest.absorbAll digest.start (List.replicate zeros 0)))

theorem length_keyBlock (specifier : Specifier) (passphrase : Bytes) (zeros : Nat) :
    (keyBlock digest specifier passphrase zeros).length = digest.size :=
  digest.length_finish _

def lengthen (specifier : Specifier) (passphrase : Bytes) (size zeros : Nat) (key : Bytes) :
    Bytes :=
  if key.length < size then
    lengthen specifier passphrase size (zeros + 1)
      (key ++ keyBlock digest specifier passphrase zeros)
  else key.take size
termination_by size - key.length
decreasing_by
  have longer := digest.size_pos
  rw [List.length_append, length_keyBlock]
  omega

def deriveWith (specifier : Specifier) (passphrase : Bytes) (size : Nat) : Bytes :=
  lengthen digest specifier passphrase size 0 []

end Derive

def derive (specifier : Specifier) (passphrase : Bytes) (size : Nat) : Bytes :=
  deriveWith specifier.hash.digest specifier passphrase size

end Specifier

end DeadDrop.Envelope
