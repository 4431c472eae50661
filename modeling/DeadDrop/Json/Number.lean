import DeadDrop.Json.Fault

/-!
JSON numbers. Whole numbers that fit 64 bits are read exactly, everything else as floating point:
the digits that fit a 64-bit word, scaled by a power of ten.
-/

namespace DeadDrop.Json

inductive Number where
  | natural (value : Nat)
  | negative (value : Int)
  | float (value : Float)

def Number.found : Number → Found
  | natural value => .integer value
  | negative value => .integer value
  | float value => .float value

namespace Number

def isDigit (octet : UInt8) : Bool := 0x30 ≤ octet && octet ≤ 0x39

def digitValue (octet : UInt8) : Nat := octet.toNat - 0x30

def wordLimit : Nat := UInt64.size
def exponentLimit : Nat := 0x80000000
def magnitudeLimit : Nat := 0x8000000000000000

def skipDigits (rest : Bytes) : Bytes := rest.dropWhile isDigit

/-- Digits taken while the number stays in a word; the flag tells that the next one would not fit.
-/
structure Taken where
  value : Nat
  count : Nat
  full : Bool
  rest : Bytes

def takeDigits (limit value count : Nat) : Bytes → Taken
  | [] => ⟨value, count, false, []⟩
  | octet :: rest =>
      if isDigit octet then
        let next := value * 10 + digitValue octet
        if next < limit then takeDigits limit next (count + 1) rest
        else ⟨value, count, true, octet :: rest⟩
      else ⟨value, count, false, octet :: rest⟩

def power (exponent : Nat) : Float := Float.ofScientific 1 false exponent

/-- Division by the largest power of ten as long as the exponent is too small for one division. -/
def scaleDown : Nat → Float → Int → Float
  | 0, value, _ => value
  | more + 1, value, exponent =>
      if -exponent ≤ 308 then value / power (-exponent).toNat
      else if value == 0.0 then value
      else scaleDown more (value / power 308) (exponent + 308)

def assemble (positive : Bool) (significand : Nat) (exponent : Int) (rest : Bytes) :
    Except Fault (Float × Bytes) :=
  let start := (UInt64.ofNat significand).toFloat
  let signed (value : Float) : Float := if positive then value else -value
  if exponent < 0 then .ok (signed (scaleDown 100000000 start exponent), rest)
  else if exponent ≤ 308 then
    let value := start * power exponent.toNat
    if value.isInf then .error (.here .numberOutOfRange rest) else .ok (signed value, rest)
  else if start == 0.0 then .ok (signed start, rest)
  else .error (.here .numberOutOfRange rest)

def readExponentDigits (positive upward : Bool) (significand : Nat) (start : Int)
    (first : UInt8) (rest : Bytes) : Except Fault (Float × Bytes) :=
  let taken := takeDigits exponentLimit (digitValue first) 0 rest
  if taken.full then
    if significand ≠ 0 ∧ upward then .error (.here .numberOutOfRange (taken.rest.drop 1))
    else .ok (if positive then 0.0 else -0.0, skipDigits taken.rest)
  else
    let moved := if upward then start + taken.value else start - taken.value
    assemble positive significand moved taken.rest

def readExponent (positive : Bool) (significand : Nat) (start : Int) (rest : Bytes) :
    Except Fault (Float × Bytes) :=
  let (upward, rest) := match rest with
    | 0x2B :: tail => (true, tail)
    | 0x2D :: tail => (false, tail)
    | _ => (true, rest)
  match rest with
  | [] => .error (.here .endInValue [])
  | first :: tail =>
      if isDigit first then readExponentDigits positive upward significand start first tail
      else .error (.here .invalidNumber tail)

def isExponentMark (octet : UInt8) : Bool := octet = 0x65 || octet = 0x45

def readOptionalExponent (positive : Bool) (significand : Nat) (exponent : Int) (rest : Bytes) :
    Except Fault (Float × Bytes) :=
  match rest with
  | mark :: tail =>
      if isExponentMark mark then readExponent positive significand exponent tail
      else assemble positive significand exponent rest
  | [] => assemble positive significand exponent []

/-- The `rest` starts after the point. Digits that no longer fit are passed over. -/
def readFraction (positive : Bool) (significand : Nat) (exponent : Int) (rest : Bytes) :
    Except Fault (Float × Bytes) :=
  let taken := takeDigits wordLimit significand 0 rest
  if taken.full then
    readOptionalExponent positive taken.value (exponent - taken.count) (skipDigits taken.rest)
  else if taken.count = 0 then
    match taken.rest with
    | [] => .error (.here .endInValue [])
    | _ => .error (.next .invalidNumber taken.rest)
  else readOptionalExponent positive taken.value (exponent - taken.count) taken.rest

/-- A whole part longer than a word: further digits only raise the exponent. -/
def readLong (positive : Bool) (significand : Nat) (rest : Bytes) :
    Except Fault (Float × Bytes) :=
  let extra := (rest.takeWhile isDigit).length
  match skipDigits rest with
  | 0x2E :: tail => readFraction positive significand extra tail
  | other => readOptionalExponent positive significand extra other

def finish (positive : Bool) (significand : Nat) (rest : Bytes) :
    Except Fault (Number × Bytes) :=
  let real (result : Except Fault (Float × Bytes)) : Except Fault (Number × Bytes) :=
    result.map fun (value, rest) => (.float value, rest)
  match rest with
  | 0x2E :: tail => real (readFraction positive significand 0 tail)
  | 0x65 :: tail | 0x45 :: tail => real (readExponent positive significand 0 tail)
  | _ =>
      if positive then .ok (.natural significand, rest)
      else if significand = 0 ∨ significand > magnitudeLimit then
        .ok (.float (-(UInt64.ofNat significand).toFloat), rest)
      else .ok (.negative (-significand), rest)

def read (positive : Bool) (bytes : Bytes) : Except Fault (Number × Bytes) :=
  match bytes with
  | [] => .error (.here .endInValue [])
  | 0x30 :: rest =>
      match rest with
      | octet :: _ =>
          if isDigit octet then .error (.next .invalidNumber rest) else finish positive 0 rest
      | [] => finish positive 0 []
  | first :: rest =>
      if isDigit first then
        let taken := takeDigits wordLimit (digitValue first) 0 rest
        if taken.full then
          (readLong positive taken.value taken.rest).map fun (value, rest) => (.float value, rest)
        else finish positive taken.value taken.rest
      else .error (.here .invalidNumber rest)

end Number

end DeadDrop.Json
