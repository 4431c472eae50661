import DeadDrop.Bytes

/-!
Base64 in its standard and its URL-safe alphabet. Three octets make four digits; a shorter last
group is padded. Decoding accepts only what encoding writes: full padding, and no stray bits
under it.
-/

namespace DeadDrop.Armor.Base64

structure Alphabet where
  digit62 : Char
  digit63 : Char

def Alphabet.standard : Alphabet := ⟨'+', '/'⟩
def Alphabet.urlSafe : Alphabet := ⟨'-', '_'⟩

def Alphabet.digit (alphabet : Alphabet) (value : Nat) : Char :=
  if value < 26 then Char.ofNat (65 + value)
  else if value < 52 then Char.ofNat (97 + (value - 26))
  else if value < 62 then Char.ofNat (48 + (value - 52))
  else if value = 62 then alphabet.digit62
  else alphabet.digit63

def Alphabet.value? (alphabet : Alphabet) (c : Char) : Option Nat :=
  if 'A' ≤ c ∧ c ≤ 'Z' then some (c.toNat - 65)
  else if 'a' ≤ c ∧ c ≤ 'z' then some (c.toNat - 97 + 26)
  else if '0' ≤ c ∧ c ≤ '9' then some (c.toNat - 48 + 52)
  else if c = alphabet.digit62 then some 62
  else if c = alphabet.digit63 then some 63
  else none

def encode (alphabet : Alphabet) : Bytes → List Char
  | [] => []
  | [x] =>
      [alphabet.digit (x.toNat / 4), alphabet.digit (x.toNat % 4 * 16), '=', '=']
  | [x, y] =>
      [alphabet.digit (x.toNat / 4), alphabet.digit (x.toNat % 4 * 16 + y.toNat / 16),
        alphabet.digit (y.toNat % 16 * 4), '=']
  | x :: y :: z :: rest =>
      alphabet.digit (x.toNat / 4) :: alphabet.digit (x.toNat % 4 * 16 + y.toNat / 16)
        :: alphabet.digit (y.toNat % 16 * 4 + z.toNat / 64) :: alphabet.digit (z.toNat % 64)
        :: encode alphabet rest

def join (a b c d : Nat) : UInt8 × UInt8 × UInt8 :=
  (UInt8.ofNat (a * 4 + b / 16), UInt8.ofNat (b % 16 * 16 + c / 4), UInt8.ofNat (c % 4 * 64 + d))

def decode? (alphabet : Alphabet) (digits : List Char) : Option Bytes :=
  go [] digits
where
  -- `done` is what has been decoded, newest first.
  go (done : Bytes) : List Char → Option Bytes
    | [] => some done.reverse
    | a :: b :: c :: d :: rest =>
        match alphabet.value? a, alphabet.value? b, alphabet.value? c, alphabet.value? d with
        | some a, some b, some c, some d =>
            let (x, y, z) := join a b c d
            go (z :: y :: x :: done) rest
        | some a, some b, some c, none =>
            if d = '=' ∧ rest = [] ∧ c % 4 = 0 then
              let (x, y, _) := join a b c 0
              some (y :: x :: done).reverse
            else none
        | some a, some b, none, none =>
            if c = '=' ∧ d = '=' ∧ rest = [] ∧ b % 16 = 0 then
              let (x, _, _) := join a b 0 0
              some (x :: done).reverse
            else none
        | _, _, _, _ => none
    | _ => none

end DeadDrop.Armor.Base64
