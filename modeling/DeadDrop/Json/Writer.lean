import DeadDrop.Json.Record

/-!
Writing records. Members stand in the given order, without blanks.
-/

namespace DeadDrop.Json

def writeInt (value : Int) : List Char := (toString value).toList

def writeFlag (value : Bool) : List Char := if value then "true".toList else "false".toList

def Value.write : Value → List Char
  | text value => writeText value
  | int32 value => writeInt value.toInt
  | flag value => writeFlag value
  | absent => "null".toList

def writeMember (member : String × Value) : List Char :=
  writeText member.1 ++ ':' :: member.2.write

def writeMembers : List (String × Value) → List Char
  | [] => []
  | [last] => writeMember last
  | member :: others => writeMember member ++ ',' :: writeMembers others

def writeRecord (members : List (String × Value)) : List Char :=
  '\x7b' :: writeMembers members ++ ['\x7d']

end DeadDrop.Json
