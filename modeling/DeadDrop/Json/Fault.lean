import DeadDrop.Bytes
import DeadDrop.Decimal.Shortest
import DeadDrop.Text.Quoted

/-!
Why a JSON text is refused, and where. A fault counts the octets that were left to read; line and
column follow from the text. Columns count octets.
-/

namespace DeadDrop.Json

inductive Found where
  | null
  | boolean (value : Bool)
  | integer (value : Int)
  | float (value : Float)
  | text (value : String)
  | sequence
  | map

inductive Cause where
  | endInValue
  | endInList
  | endInObject
  | endInString
  | expectedColon
  | expectedListEnd
  | expectedObjectEnd
  | expectedLiteral
  | expectedValue
  | invalidEscape
  | invalidNumber
  | numberOutOfRange
  | invalidUnicode
  | controlCharacter
  | keyNotString
  | loneSurrogate
  | unfinishedSurrogate
  | trailingComma
  | trailingCharacters
  | wrongType (found : Found) (expected : String)
  | wrongValue (found : Found) (expected : String)
  | wrongLength (length : Nat) (expected : String)
  | missingField (name : String)
  | duplicateField (name : String)

structure Fault where
  cause : Cause
  left : Nat

def Found.message : Found → String
  | null => "null"
  | boolean value => s!"boolean `{value}`"
  | integer value => s!"integer `{value}`"
  | float value => "floating point `" ++ Decimal.compact.text value ++ "`"
  | text value => "string " ++ Text.Quoted.quote value
  | sequence => "sequence"
  | map => "map"

def Cause.message : Cause → String
  | endInValue => "EOF while parsing a value"
  | endInList => "EOF while parsing a list"
  | endInObject => "EOF while parsing an object"
  | endInString => "EOF while parsing a string"
  | expectedColon => "expected `:`"
  | expectedListEnd => "expected `,` or `]`"
  | expectedObjectEnd => "expected `,` or `\x7d`"
  | expectedLiteral => "expected ident"
  | expectedValue => "expected value"
  | invalidEscape => "invalid escape"
  | invalidNumber => "invalid number"
  | numberOutOfRange => "number out of range"
  | invalidUnicode => "invalid unicode code point"
  | controlCharacter => "control character (\\u0000-\\u001F) found while parsing a string"
  | keyNotString => "key must be a string"
  | loneSurrogate => "lone leading surrogate in hex escape"
  | unfinishedSurrogate => "unexpected end of hex escape"
  | trailingComma => "trailing comma"
  | trailingCharacters => "trailing characters"
  | wrongType found expected => "invalid type: " ++ found.message ++ ", expected " ++ expected
  | wrongValue found expected => "invalid value: " ++ found.message ++ ", expected " ++ expected
  | wrongLength length expected => s!"invalid length {length}, expected " ++ expected
  | missingField name => s!"missing field `{name}`"
  | duplicateField name => s!"duplicate field `{name}`"

structure Position where
  line : Nat
  column : Nat

def lineFeed : UInt8 := 0x0A

def Position.after (read : Bytes) : Position :=
  ⟨read.count lineFeed + 1, (read.reverse.takeWhile (· ≠ lineFeed)).length⟩

def Fault.message (fault : Fault) (text : Bytes) : String :=
  let position := Position.after (text.take (text.length - fault.left))
  s!"{fault.cause.message} at line {position.line} column {position.column}"

/-- Faults at the next octet are shown one past it, unless the text has ended. -/
def Fault.here (cause : Cause) (rest : Bytes) : Fault := ⟨cause, rest.length⟩
def Fault.next (cause : Cause) (rest : Bytes) : Fault := ⟨cause, rest.length - 1⟩

end DeadDrop.Json
