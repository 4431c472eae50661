import DeadDrop.Json.Number
import DeadDrop.Json.Text

/-!
Blanks, literals, and values that nobody asked for. An unknown value is passed over with its
brackets on a stack, so it may nest as deep as it likes.
-/

namespace DeadDrop.Json

def isBlank (octet : UInt8) : Bool :=
  octet = 0x20 || octet = 0x0A || octet = 0x09 || octet = 0x0D

def skipBlanks (bytes : Bytes) : Bytes := bytes.dropWhile isBlank

def comma : UInt8 := 0x2C
def colon : UInt8 := 0x3A
def openList : UInt8 := 0x5B
def closeList : UInt8 := 0x5D
def openMap : UInt8 := 0x7B
def closeMap : UInt8 := 0x7D
def minus : UInt8 := 0x2D

def readLiteral : List UInt8 → Bytes → Except Fault Bytes
  | [], rest => .ok rest
  | _ :: _, [] => .error (.here .endInValue [])
  | wanted :: more, octet :: rest =>
      if octet = wanted then readLiteral more rest else .error (.here .expectedLiteral rest)

def ull : List UInt8 := [0x75, 0x6C, 0x6C]
def rue : List UInt8 := [0x72, 0x75, 0x65]
def alse : List UInt8 := [0x61, 0x6C, 0x73, 0x65]

namespace Skip

def exponent (bytes : Bytes) : Except Fault Bytes :=
  let digits := match bytes with
    | 0x2B :: rest | 0x2D :: rest => rest
    | _ => bytes
  match digits with
  | first :: rest =>
      if Number.isDigit first then .ok (Number.skipDigits rest)
      else .error (.here .invalidNumber rest)
  | [] => .error (.here .invalidNumber [])

def optionalExponent (bytes : Bytes) : Except Fault Bytes :=
  match bytes with
  | mark :: rest => if Number.isExponentMark mark then exponent rest else .ok bytes
  | [] => .ok []

def fraction (bytes : Bytes) : Except Fault Bytes :=
  match bytes with
  | point :: digits =>
      if point = 0x2E then
        let rest := Number.skipDigits digits
        if rest.length = digits.length then .error (.next .invalidNumber rest)
        else optionalExponent rest
      else optionalExponent bytes
  | [] => .ok []

def number (bytes : Bytes) : Except Fault Bytes :=
  match bytes with
  | [] => .error (.here .invalidNumber [])
  | first :: rest =>
      if first = 0x30 then
        match rest with
        | next :: _ =>
            if Number.isDigit next then .error (.next .invalidNumber rest) else fraction rest
        | [] => .ok []
      else if Number.isDigit first then fraction (Number.skipDigits rest)
      else .error (.here .invalidNumber rest)

inductive Bracket where
  | list
  | map
  deriving DecidableEq

def Bracket.closing : Bracket → UInt8
  | list => closeList
  | map => closeMap

def Bracket.wantsMore : Bracket → Cause
  | list => .expectedListEnd
  | map => .expectedObjectEnd

def Bracket.ended : Bracket → Cause
  | list => .endInList
  | map => .endInObject

def key (bytes : Bytes) : Except Fault Bytes := do
  let rest ← match skipBlanks bytes with
    | [] => .error (.here .endInObject [])
    | octet :: rest =>
        if octet = quoteMark then skipText rest
        else .error (.next .keyNotString (octet :: rest))
  match skipBlanks rest with
  | [] => .error (.here .endInObject [])
  | octet :: rest =>
      if octet = colon then .ok rest else .error (.next .expectedColon (octet :: rest))

inductive Start where
  | scalar (rest : Bytes)
  | bracket (bracket : Bracket) (rest : Bytes)

def start (bytes : Bytes) : Except Fault Start :=
  match skipBlanks bytes with
  | [] => .error (.here .endInValue [])
  | octet :: rest =>
      if octet = 0x6E then (readLiteral ull rest).map .scalar
      else if octet = 0x74 then (readLiteral rue rest).map .scalar
      else if octet = 0x66 then (readLiteral alse rest).map .scalar
      else if octet = minus then (number rest).map .scalar
      else if Number.isDigit octet then (number (octet :: rest)).map .scalar
      else if octet = quoteMark then (skipText rest).map .scalar
      else if octet = openList then .ok (.bracket .list rest)
      else if octet = openMap then .ok (.bracket .map rest)
      else .error (.next .expectedValue (octet :: rest))

/-- Brackets close as long as they can; what is left is the inside of the innermost open one,
where the next value stands, or nothing when the last has closed. `filled` tells that it holds a
value. -/
def close : List Bracket → Bool → Bytes → Except Fault (List Bracket × Bytes)
  | [], _, bytes => .ok ([], bytes)
  | bracket :: outer, filled, bytes =>
      match skipBlanks bytes with
      | [] => .error (.here bracket.ended [])
      | octet :: rest =>
          if filled ∧ octet = comma then .ok (bracket :: outer, rest)
          else if octet = bracket.closing then close outer true rest
          else if filled then .error (.next bracket.wantsMore (octet :: rest))
          else .ok (bracket :: outer, octet :: rest)

/-- Every value takes at least one octet, so the text left bounds their number. -/
def values : Nat → List Bracket → Bytes → Except Fault Bytes
  | 0, _, _ => .error (.here .endInValue [])
  | more + 1, brackets, bytes => do
      let (brackets, bytes) ← match ← start bytes with
        | .scalar rest => close brackets true rest
        | .bracket bracket rest => close (bracket :: brackets) false rest
      match brackets with
      | [] => .ok bytes
      | .list :: _ => values more brackets bytes
      | .map :: _ => do values more brackets (← key bytes)

end Skip

def skipValue (bytes : Bytes) : Except Fault Bytes := Skip.values (bytes.length + 1) [] bytes

end DeadDrop.Json
