import DeadDrop.Text.Utf8

/-!
Percent-encoding. A character that may not stand as itself is written as the octets of its UTF-8
form, each a percent sign and two upper-case hexadecimal digits. Decoding leaves a percent sign
that two digits do not follow as it is.
-/

namespace DeadDrop.Url

namespace Percent

def digit (nibble : Nat) : Char :=
  if nibble < 10 then Char.ofNat (48 + nibble) else Char.ofNat (55 + nibble)

def escapeOctet (octet : UInt8) : List Char :=
  ['%', digit (octet.toNat / 16), digit (octet.toNat % 16)]

def escapeChar (c : Char) : List Char := (String.utf8EncodeChar c).flatMap escapeOctet

def encode (escaped : Char → Bool) (chars : List Char) : List Char :=
  chars.flatMap fun c => if escaped c then escapeChar c else [c]

def percentSign : UInt8 := 0x25

def decode (bytes : Bytes) : Bytes :=
  match bytes with
  | [] => []
  | [octet] => [octet]
  | [octet, last] => [octet, last]
  | octet :: high :: low :: rest =>
      if octet = percentSign then
        match Hex.octetValue? high, Hex.octetValue? low with
        | some h, some l => UInt8.ofNat (16 * h + l) :: decode rest
        | _, _ => octet :: decode (high :: low :: rest)
      else octet :: decode (high :: low :: rest)

end Percent

section Escaped

def isControl (c : Char) : Bool := c.toNat < 0x20 || 0x7F ≤ c.toNat

def escapedInFragment (c : Char) : Bool :=
  isControl c || c = ' ' || c = '"' || c = '<' || c = '>' || c = '`'

def escapedInPath (c : Char) : Bool :=
  escapedInFragment c || c = '#' || c = '?' || c = '\x7b' || c = '\x7d'

def escapedInUser (c : Char) : Bool :=
  escapedInPath c || c = '/' || c = ':' || c = ';' || c = '=' || c = '@' || c = '['
    || c = '\\' || c = ']' || c = '^' || c = '|'

def escapedInQuery (special : Bool) (c : Char) : Bool :=
  isControl c || c = ' ' || c = '"' || c = '#' || c = '<' || c = '>' || (special && c = '\'')

end Escaped

end DeadDrop.Url
