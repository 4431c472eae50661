import DeadDrop.Bytes

/-!
Message digests as machines that absorb one octet at a time. A digest of a message is then a
fold over it, so splitting the message into parts changes nothing.

The iterated construction cuts the message into blocks, compresses each into a chaining value,
and pads the last with a one bit, zeros and the bit length of the whole.
-/

namespace DeadDrop

structure Digest where
  State : Type
  start : State
  absorb : State → UInt8 → State
  finish : State → Bytes
  size : Nat
  size_pos : 0 < size
  length_finish : ∀ state, (finish state).length = size

namespace Digest

variable (digest : Digest)

def absorbAll (state : digest.State) (bytes : Bytes) : digest.State :=
  bytes.foldl digest.absorb state

def ofBytes (message : Bytes) : Bytes :=
  digest.finish (digest.absorbAll digest.start message)

theorem absorbAll_append (state : digest.State) (left right : Bytes) :
    digest.absorbAll state (left ++ right) =
      digest.absorbAll (digest.absorbAll state left) right := by
  simp [absorbAll, List.foldl_append]

@[simp] theorem length_ofBytes (message : Bytes) :
    (digest.ofBytes message).length = digest.size :=
  digest.length_finish _

end Digest

structure Compression (Chain : Type) where
  blockSize : Nat
  lengthWidth : Nat
  compress : Chain → Bytes → Chain

/-- The last `filled` octets are in `pending`, in reverse; they are fewer than a block. -/
structure Absorbed (Chain : Type) where
  chain : Chain
  pending : Bytes
  filled : Nat
  total : Nat

namespace Compression

variable {Chain : Type} (compression : Compression Chain)

def begin (initial : Chain) : Absorbed Chain := ⟨initial, [], 0, 0⟩

def absorb (state : Absorbed Chain) (octet : UInt8) : Absorbed Chain :=
  if state.filled + 1 < compression.blockSize then
    ⟨state.chain, octet :: state.pending, state.filled + 1, state.total + 1⟩
  else
    ⟨compression.compress state.chain (octet :: state.pending).reverse, [], 0, state.total + 1⟩

def padding (filled total : Nat) : Bytes :=
  let used := filled + 1 + compression.lengthWidth
  let zeros := (compression.blockSize - used % compression.blockSize) % compression.blockSize
  0x80 :: List.replicate zeros 0 ++ Bytes.ofNat compression.lengthWidth (8 * total)

def finish (state : Absorbed Chain) : Chain :=
  ((compression.padding state.filled state.total).foldl compression.absorb state).chain

end Compression

end DeadDrop
