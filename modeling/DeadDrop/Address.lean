import DeadDrop.Bytes
import DeadDrop.Text.Blank

/-!
Internet addresses in their strict forms: four decimal numbers, or eight hexadecimal pieces of
which one run of zeros may be left out.
-/

namespace DeadDrop.Address

open Text.Blank (splitOn)

def joinWith (separator : Char) : List (List Char) → List Char
  | [] => []
  | [last] => last
  | piece :: others => piece ++ separator :: joinWith separator others

def isDecimal (c : Char) : Bool := '0' ≤ c && c ≤ '9'

def number? (base : Nat) (digits : List Char) : Option Nat :=
  digits.foldlM (fun value c =>
    match Hex.value? c with
    | some digit => if digit < base then some (value * base + digit) else none
    | none => none) 0

section V4

def writeDecimal (value : Nat) : List Char := Nat.toDigits 10 value

def writeV4 (address : Nat) : List Char :=
  joinWith '.' ((Bytes.ofNat 4 address).map fun octet => writeDecimal octet.toNat)

def dottedPart? (digits : List Char) : Option Nat :=
  match digits with
  | ['0'] => some 0
  | '0' :: _ => none
  | [] => none
  | _ => (number? 10 digits).filter (· ≤ 255)

def v4? (chars : List Char) : Option Nat := do
  match ← (splitOn '.' chars).mapM dottedPart? with
  | [a, b, c, d] => return ((a * 256 + b) * 256 + c) * 256 + d
  | _ => none

end V4

section V6

def piece? (digits : List Char) : Option (List Nat) :=
  if digits = [] ∨ 4 < digits.length then none else (number? 16 digits).map ([·])

/-- An address of four octets may stand for the last two pieces. -/
def dotted? (chars : List Char) : Option (List Nat) :=
  (v4? chars).map fun address => [address / 65536, address % 65536]

def pieces? : List (List Char) → Option (List Nat)
  | [] => some []
  | [last] => if last.contains '.' then dotted? last else piece? last
  | piece :: others => do return (← piece? piece) ++ (← pieces? others)

def side? (chars : List Char) : Option (List Nat) :=
  if chars = [] then some [] else pieces? (splitOn ':' chars)

def splitCompressed : List Char → Option (List Char × List Char)
  | ':' :: ':' :: rest => some ([], rest)
  | c :: rest => (splitCompressed rest).map fun (left, right) => (c :: left, right)
  | [] => none

/-- A pair of colons stands for at least one piece of zero. -/
def v6? (chars : List Char) : Option (List Nat) :=
  match splitCompressed chars with
  | none => (pieces? (splitOn ':' chars)).filter (·.length = 8)
  | some (left, right) => do
      if left.contains '.' then none
      let before ← side? left
      let after ← side? right
      if before.length + after.length ≤ 7 then
        return before ++ List.replicate (8 - before.length - after.length) 0 ++ after
      else none

def zeroRun (pieces : List Nat) : Nat := (pieces.takeWhile (· = 0)).length

/-- Start and length of the longest run of zeros, the first of equals. -/
def longestRun : Nat → List Nat → Nat × Nat
  | _, [] => (0, 0)
  | start, piece :: rest =>
      let here := zeroRun (piece :: rest)
      let (place, longest) := longestRun (start + 1) rest
      if longest ≤ here then (start, here) else (place, longest)

def writePiece (piece : Nat) : List Char := Nat.toDigits 16 piece

def writeV6 (pieces : List Nat) : List Char :=
  let (start, length) := longestRun 0 pieces
  let text (pieces : List Nat) := joinWith ':' (pieces.map writePiece)
  if length < 2 then text pieces
  else text (pieces.take start) ++ ':' :: ':' :: text (pieces.drop (start + length))

end V6

section Either

inductive Ip where
  | v4 (address : Nat)
  | v6 (pieces : List Nat)
  deriving DecidableEq

def ip? (chars : List Char) : Option Ip :=
  match v4? chars with
  | some address => some (.v4 address)
  | none => (v6? chars).map .v6

def mapped? : List Nat → Option Nat
  | [0, 0, 0, 0, 0, 0xFFFF, high, low] => some (high * 65536 + low)
  | _ => none

def writeMapped (pieces : List Nat) : List Char :=
  match mapped? pieces with
  | some address => "::ffff:".toList ++ writeV4 address
  | none => writeV6 pieces

def writeEndpoint (port : Nat) : Ip → List Char
  | .v4 address => writeV4 address ++ ':' :: writeDecimal port
  | .v6 pieces => '[' :: writeMapped pieces ++ ']' :: ':' :: writeDecimal port

end Either

end DeadDrop.Address
