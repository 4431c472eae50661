/-!
Decimal text of binary floating point. Of all decimals that round to a number, the shortest is
written; of two shortest the nearer, and on a tie the one with the even last digit. The search
is exact: for one digit, two digits and so on it looks at the two neighbours of the number on
that decimal grid.
-/

namespace DeadDrop.Decimal

/-- A positive number `mantissa * 2 ^ exponent`; the gap below is half the one above at a power of
two. -/
structure Binary where
  mantissa : Nat
  exponent : Int
  narrowBelow : Bool

inductive Decoded where
  | zero
  | finite (value : Binary)
  | infinite
  | undefined

def signOf (x : Float) : Bool := x.toBits >>> 63 = 1

/-- The leading bit of a mantissa, which is not stored. -/
def hiddenBit : Nat := 0x10000000000000

def decode (x : Float) : Decoded :=
  let bits : Nat := x.toBits.toNat
  let fraction : Nat := bits % hiddenBit
  let biased : Nat := bits / hiddenBit % 2048
  if biased = 2047 then if fraction = 0 then .infinite else .undefined
  else if biased = 0 then
    if fraction = 0 then .zero else .finite ⟨fraction, -1074, false⟩
  else .finite ⟨hiddenBit + fraction, (biased : Int) - 1075, fraction = 0 ∧ biased > 1⟩

structure Figure where
  digits : Nat
  exponent : Int

/-- A positive rational in lowest shape for comparing: quarters of the last place over a power of
ten. -/
structure Scale where
  numerator : Nat
  denominator : Nat

def scaleAt (value : Binary) (exponent : Int) : Scale :=
  let two := value.exponent - 2
  ⟨Nat.pow 10 (-exponent).toNat <<< two.toNat, Nat.pow 10 exponent.toNat <<< (-two).toNat⟩

def rounds (value : Binary) (scale : Scale) (digits : Nat) : Bool :=
  let quarters := digits * scale.denominator
  let low := (4 * value.mantissa - (if value.narrowBelow then 1 else 2)) * scale.numerator
  let high := (4 * value.mantissa + 2) * scale.numerator
  if value.mantissa % 2 = 0 then low ≤ quarters && quarters ≤ high
  else low < quarters && quarters < high

def neighbour (value : Binary) (exponent : Int) : Option Figure :=
  let scale := scaleAt value exponent
  let exact := 4 * value.mantissa * scale.numerator
  let below := exact / scale.denominator
  let downward := exact - below * scale.denominator
  let upward := scale.denominator - downward
  match rounds value scale below && below ≠ 0, rounds value scale (below + 1) with
  | true, true =>
      if downward < upward ∨ (downward = upward ∧ below % 2 = 0) then some ⟨below, exponent⟩
      else some ⟨below + 1, exponent⟩
  | true, false => some ⟨below, exponent⟩
  | false, true => some ⟨below + 1, exponent⟩
  | false, false => none

def magnitude (value : Binary) : Int :=
  go 700 330
where
  go : Nat → Int → Int
    | 0, e => e
    | more + 1, e =>
        let scale := scaleAt value e
        if scale.denominator ≤ 4 * value.mantissa * scale.numerator then e else go more (e - 1)

def shortestFrom (value : Binary) : Nat → Int → Option Figure
  | 0, _ => none
  | more + 1, exponent =>
      match neighbour value exponent with
      | some figure => some figure
      | none => shortestFrom value more (exponent - 1)

def shortest (value : Binary) : Figure :=
  (shortestFrom value 20 (magnitude value)).getD ⟨0, 0⟩

/-- Exponents of the leading digit from `lowest` to `highest` are written out; `whole` ends a
whole number. -/
structure Style where
  lowest : Int
  highest : Int
  whole : String

def stripZeros : Nat → Nat → Int → Nat × Int
  | 0, digits, exponent => (digits, exponent)
  | more + 1, digits, exponent =>
      if digits % 10 = 0 ∧ digits ≠ 0 then stripZeros more (digits / 10) (exponent + 1)
      else (digits, exponent)

def zeros (count : Int) : List Char := List.replicate count.toNat '0'

def Style.positional (style : Style) (digits : List Char) (exponent : Int) : List Char :=
  let point := digits.length + exponent
  if exponent ≥ 0 then digits ++ zeros exponent ++ style.whole.toList
  else if point > 0 then digits.take point.toNat ++ '.' :: digits.drop point.toNat
  else '0' :: '.' :: zeros (-point) ++ digits

def scientific (digits : List Char) (leading : Int) : List Char :=
  let mantissa := match digits with
    | [] => []
    | [digit] => [digit]
    | digit :: rest => digit :: '.' :: rest
  let size := Nat.toDigits 10 leading.natAbs
  mantissa ++ 'e' :: (if leading < 0 then '-' else '+')
    :: (if size.length < 2 then '0' :: size else size)

def Style.write (style : Style) (figure : Figure) : List Char :=
  let (number, exponent) := stripZeros 400 figure.digits figure.exponent
  let digits := Nat.toDigits 10 number
  let leading := digits.length - 1 + exponent
  if style.lowest ≤ leading ∧ leading ≤ style.highest then style.positional digits exponent
  else scientific digits leading

def Style.text (style : Style) (x : Float) : String :=
  let sign := if signOf x then ['-'] else []
  match decode x with
  | .zero => String.ofList (sign ++ '0' :: style.whole.toList)
  | .finite value => String.ofList (sign ++ style.write (shortest value))
  | .infinite => String.ofList (sign ++ ['i', 'n', 'f'])
  | .undefined => "NaN"

def plain : Style := ⟨-400, 400, ""⟩

def compact : Style := ⟨-5, 15, ".0"⟩

end DeadDrop.Decimal
