import DeadDrop.Bytes

/-!
Reading bits, least significant first within each octet. A cursor holds the unread bits of the
octet it is in; reading whole octets gives them up.
-/

namespace DeadDrop.Inflate

/-- A stream is broken either by what it says or by where it ends. -/
inductive Fault where
  | corrupt
  | incomplete
  deriving DecidableEq, Repr

structure BitCursor where
  held : Nat
  count : Nat
  rest : Bytes
  deriving DecidableEq

namespace BitCursor

def ofBytes (bytes : Bytes) : BitCursor := ⟨0, 0, bytes⟩

def left (cursor : BitCursor) : Nat := cursor.count + 8 * cursor.rest.length

def bit (cursor : BitCursor) : Except Fault (Nat × BitCursor) :=
  match cursor.count, cursor.rest with
  | more + 1, rest => .ok (cursor.held % 2, ⟨cursor.held / 2, more, rest⟩)
  | 0, octet :: rest => .ok (octet.toNat % 2, ⟨octet.toNat / 2, 7, rest⟩)
  | 0, [] => .error .incomplete

def bits : Nat → BitCursor → Except Fault (Nat × BitCursor)
  | 0, cursor => .ok (0, cursor)
  | more + 1, cursor => do
      let (low, cursor) ← cursor.bit
      let (high, cursor) ← bits more cursor
      return (low + 2 * high, cursor)

/-- Whole octets; any bits still held are given up. -/
def octets (count : Nat) (cursor : BitCursor) : Except Fault (Bytes × BitCursor) :=
  let front := cursor.rest.take count
  if front.length = count then .ok (front, .ofBytes (cursor.rest.drop count))
  else .error .incomplete

end BitCursor

end DeadDrop.Inflate
