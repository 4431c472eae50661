/-!
Octet strings. A message on its way to the drop is a list of octets at every stage. Numbers
inside it are written most significant octet first; text about it is lower-case hexadecimal.
-/

namespace DeadDrop

abbrev Bytes := List UInt8

abbrev Sized (size : Nat) := { bytes : Bytes // bytes.length = size }

def Sized.ofBytes? (size : Nat) (bytes : Bytes) : Option (Sized size) :=
  if fits : bytes.length = size then some ⟨bytes, fits⟩ else none

def Sized.filled (size : Nat) (value : UInt8) : Sized size :=
  ⟨List.replicate size value, List.length_replicate⟩

namespace Bytes

def toNat (bytes : Bytes) : Nat :=
  bytes.foldl (fun value octet => value * 256 + octet.toNat) 0

def ofNat : Nat → Nat → Bytes
  | 0, _ => []
  | width + 1, value => ofNat width (value / 256) ++ [UInt8.ofNat (value % 256)]

@[simp] theorem length_ofNat (width value : Nat) : (ofNat width value).length = width := by
  induction width generalizing value with
  | zero => rfl
  | succ width ih => simp [ofNat, ih]

def xor (left right : Bytes) : Bytes := List.zipWith (· ^^^ ·) left right

end Bytes

namespace Hex

def digit (nibble : Nat) : Char :=
  if nibble < 10 then Char.ofNat (48 + nibble) else Char.ofNat (87 + nibble)

/-- Either case of a digit has the value; nothing else does. -/
def value? (c : Char) : Option Nat :=
  if '0' ≤ c ∧ c ≤ '9' then some (c.toNat - 48)
  else if 'a' ≤ c ∧ c ≤ 'f' then some (c.toNat - 87)
  else if 'A' ≤ c ∧ c ≤ 'F' then some (c.toNat - 55)
  else none

def octetValue? (octet : UInt8) : Option Nat := value? (Char.ofNat octet.toNat)

def ofByte (octet : UInt8) : List Char :=
  [digit (octet.toNat / 16), digit (octet.toNat % 16)]

def encode (bytes : Bytes) : List Char := bytes.flatMap ofByte

def text (bytes : Bytes) : String := String.ofList (encode bytes)

/-- Pairs of digits, from the front; an odd digit or a foreign character spoils the whole. -/
def decode? (digits : List Char) : Option Bytes :=
  go digits []
where
  go : List Char → Bytes → Option Bytes
    | [], done => some done.reverse
    | [_], _ => none
    | high :: low :: rest, done =>
        match value? high, value? low with
        | some h, some l => go rest (UInt8.ofNat (16 * h + l) :: done)
        | _, _ => none

end Hex

end DeadDrop
