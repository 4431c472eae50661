import DeadDrop.Bytes
import DeadDrop.Envelope.Error

/-!
Reading octets in order. A cursor is what is left of a string; a read that wants more than is
left fails and moves nothing.
-/

namespace DeadDrop.Packet

open Envelope (Error)

structure Cursor where
  rest : Bytes
  deriving DecidableEq

namespace Cursor

def isEmpty (cursor : Cursor) : Bool := cursor.rest.isEmpty

def take (cursor : Cursor) (count : Nat) : Except Error (Bytes × Cursor) :=
  let front := cursor.rest.take count
  if front.length = count then .ok (front, ⟨cursor.rest.drop count⟩)
  else .error (.malformed (.truncated count))

def octet (cursor : Cursor) : Except Error (UInt8 × Cursor) :=
  match cursor.rest with
  | [] => .error (.malformed (.truncated 1))
  | first :: rest => .ok (first, ⟨rest⟩)

def number (cursor : Cursor) (width : Nat) : Except Error (Nat × Cursor) :=
  (cursor.take width).map fun (front, rest) => (Bytes.toNat front, rest)

def remainder (cursor : Cursor) : Bytes × Cursor := (cursor.rest, ⟨[]⟩)

end Cursor

end DeadDrop.Packet
