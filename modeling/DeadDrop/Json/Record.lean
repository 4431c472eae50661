import DeadDrop.Json.Skip

/-!
Records. A record is read from a map, whose unknown fields are passed over and whose repeated
fields are refused, or from a list of its fields in order. A field that is missing takes its
fallback or is an error.
-/

namespace DeadDrop.Json

inductive Kind where
  | text
  | int32
  | flag
  | optionalInt32
  deriving DecidableEq

inductive Value where
  | text (value : String)
  | int32 (value : Int32)
  | flag (value : Bool)
  | absent
  deriving DecidableEq

structure Field where
  name : String
  kind : Kind
  fallback : Option Value

structure Schema where
  name : String
  fields : List Field

def Kind.expected : Kind → String
  | text => "a string"
  | int32 | optionalInt32 => "i32"
  | flag => "a boolean"

section Single

/-- A value of the wrong type is described; it must itself be well-formed as far as that needs. -/
def refuse (expected : String) (bytes : Bytes) : Fault :=
  let wrong (found : Found) (rest : Bytes) : Fault := .here (.wrongType found expected) rest
  let literal (found : Found) (result : Except Fault Bytes) : Fault :=
    match result with
    | .ok rest => wrong found rest
    | .error fault => fault
  let number (result : Except Fault (Number × Bytes)) : Fault :=
    match result with
    | .ok (number, rest) => wrong number.found rest
    | .error fault => fault
  match bytes with
  | [] => .here .endInValue []
  | octet :: rest =>
      if octet = 0x6E then literal .null (readLiteral ull rest)
      else if octet = 0x74 then literal (.boolean true) (readLiteral rue rest)
      else if octet = 0x66 then literal (.boolean false) (readLiteral alse rest)
      else if octet = minus then number (Number.read false rest)
      else if Number.isDigit octet then number (Number.read true bytes)
      else if octet = quoteMark then
        match readText rest with
        | .ok (text, rest) => wrong (.text text) rest
        | .error fault => fault
      else if octet = openList then wrong .sequence bytes
      else if octet = openMap then wrong .map bytes
      else .next .expectedValue bytes

def toInt32 (number : Number) (rest : Bytes) : Except Fault (Int32 × Bytes) :=
  let within (value : Int) : Except Fault (Int32 × Bytes) :=
    if -0x80000000 ≤ value ∧ value < 0x80000000 then .ok (Int32.ofInt value, rest)
    else .error (.here (.wrongValue number.found "i32") rest)
  match number with
  | .natural value => within value
  | .negative value => within value
  | .float value => .error (.here (.wrongType (.float value) "i32") rest)

def readInt32 (bytes : Bytes) : Except Fault (Int32 × Bytes) :=
  match skipBlanks bytes with
  | [] => .error (.here .endInValue [])
  | octet :: rest =>
      if octet = minus then do
        let (number, rest) ← Number.read false rest
        toInt32 number rest
      else if Number.isDigit octet then do
        let (number, rest) ← Number.read true (octet :: rest)
        toInt32 number rest
      else .error (refuse Kind.int32.expected (octet :: rest))

def readFlag (bytes : Bytes) : Except Fault (Bool × Bytes) :=
  match skipBlanks bytes with
  | [] => .error (.here .endInValue [])
  | octet :: rest =>
      if octet = 0x74 then (readLiteral rue rest).map fun rest => (true, rest)
      else if octet = 0x66 then (readLiteral alse rest).map fun rest => (false, rest)
      else .error (refuse Kind.flag.expected (octet :: rest))

def readString (bytes : Bytes) : Except Fault (String × Bytes) :=
  match skipBlanks bytes with
  | [] => .error (.here .endInValue [])
  | octet :: rest =>
      if octet = quoteMark then readText rest
      else .error (refuse Kind.text.expected (octet :: rest))

def readOptionalInt32 (bytes : Bytes) : Except Fault (Value × Bytes) :=
  match skipBlanks bytes with
  | 0x6E :: rest => (readLiteral ull rest).map fun rest => (.absent, rest)
  | other => (readInt32 other).map fun (value, rest) => (.int32 value, rest)

def Kind.read (kind : Kind) (bytes : Bytes) : Except Fault (Value × Bytes) :=
  match kind with
  | text => (readString bytes).map fun (value, rest) => (.text value, rest)
  | int32 => (readInt32 bytes).map fun (value, rest) => (.int32 value, rest)
  | flag => (readFlag bytes).map fun (value, rest) => (.flag value, rest)
  | optionalInt32 => readOptionalInt32 bytes

end Single

section Whole

/-- Some faults of a record are placed only after its closing bracket has been looked for. -/
inductive Trouble where
  | placed (fault : Fault)
  | unplaced (cause : Cause) (rest : Bytes)

def placed {α : Type} : Except Fault α → Except Trouble α
  | .ok value => .ok value
  | .error fault => .error (.placed fault)

/-- What has been read so far, field by field. -/
abbrev Slots := List (Field × Option Value)

def Schema.slots (schema : Schema) : Slots := schema.fields.map fun field => (field, none)

def settle : Slots → Bytes → Except Trouble (List Value)
  | [], _ => .ok []
  | (field, value) :: others, rest =>
      match value <|> field.fallback with
      | some value => (settle others rest).map (value :: ·)
      | none => .error (.unplaced (.missingField field.name) rest)

/-- Where the next key begins after its quote, or nothing before the closing bracket. -/
def nextKey (first : Bool) (bytes : Bytes) : Except Fault (Option Bytes × Bytes) :=
  let keyAt (rest : Bytes) : Except Fault (Option Bytes × Bytes) :=
    match rest with
    | [] => .error (.here .endInValue [])
    | octet :: tail =>
        if octet = quoteMark then .ok (some tail, tail)
        else if octet = closeMap then .error (.next .trailingComma rest)
        else .error (.next .keyNotString rest)
  match skipBlanks bytes with
  | [] => .error (.here .endInObject [])
  | octet :: rest =>
      if octet = closeMap then .ok (none, octet :: rest)
      else if first then keyAt (octet :: rest)
      else if octet = comma then keyAt (skipBlanks rest)
      else .error (.next .expectedObjectEnd (octet :: rest))

def readColon (bytes : Bytes) : Except Fault Bytes :=
  match skipBlanks bytes with
  | [] => .error (.here .endInObject [])
  | octet :: rest =>
      if octet = colon then .ok rest else .error (.next .expectedColon (octet :: rest))

def fill (name : String) (value : Value) : Slots → Slots
  | [] => []
  | (field, old) :: others =>
      if field.name = name then (field, some value) :: others
      else (field, old) :: fill name value others

def readMember (slots : Slots) (name : String) (rest : Bytes) :
    Except Trouble (Slots × Bytes) :=
  match slots.find? fun slot => slot.1.name = name with
  | none => do
      let rest ← placed (readColon rest >>= skipValue)
      return (slots, rest)
  | some (_, some _) => .error (.unplaced (.duplicateField name) rest)
  | some (field, none) => do
      let (value, rest) ← placed (readColon rest >>= field.kind.read)
      return (fill name value slots, rest)

/-- Every member takes at least one octet, so the text left bounds their number. -/
def readMembers : Nat → Bool → Slots → Bytes → Except Trouble (Slots × Bytes)
  | 0, _, slots, rest => .ok (slots, rest)
  | more + 1, first, slots, bytes => do
      match ← placed (nextKey first bytes) with
      | (none, rest) => return (slots, rest)
      | (some key, _) =>
          let (name, rest) ← placed (readText key)
          let (slots, rest) ← readMember slots name rest
          readMembers more false slots rest

/-- Whether another element follows, and where it begins. -/
def nextElement (first : Bool) (bytes : Bytes) : Except Fault (Bool × Bytes) :=
  let elementAt (rest : Bytes) : Except Fault (Bool × Bytes) :=
    match rest with
    | [] => .error (.here .endInValue [])
    | octet :: _ =>
        if octet = closeList then .error (.next .trailingComma rest) else .ok (true, rest)
  match skipBlanks bytes with
  | [] => .error (.here .endInList [])
  | octet :: rest =>
      if octet = closeList then .ok (false, octet :: rest)
      else if first then elementAt (octet :: rest)
      else if octet = comma then elementAt (skipBlanks rest)
      else .error (.next .expectedListEnd (octet :: rest))

def Schema.expectedLength (schema : Schema) : String :=
  let count := schema.fields.length
  let unit := if count = 1 then "element" else "elements"
  s!"struct {schema.name} with {count} {unit}"

/-- A list that ends early leaves the remaining fields to their fallbacks. -/
def readElements (schema : Schema) : List Field → Nat → Bytes →
    Except Trouble (List Value × Bytes)
  | [], _, rest => .ok ([], rest)
  | field :: others, index, bytes => do
      let (more, rest) ← placed (nextElement (index = 0) bytes)
      let (value, rest) ←
        if more then placed (field.kind.read rest)
        else match field.fallback with
          | some value => .ok (value, rest)
          | none => .error (.unplaced (.wrongLength index schema.expectedLength) rest)
      let (values, rest) ← readElements schema others (index + 1) rest
      return (value :: values, rest)

/-- The closing bracket: what is wrong with it, if anything, and what is left after looking for
it. -/
def endMap (bytes : Bytes) : Option Fault × Bytes :=
  match skipBlanks bytes with
  | [] => (some (.here .endInObject []), [])
  | octet :: rest =>
      if octet = closeMap then (none, rest)
      else if octet = comma then (some (.next .trailingComma (octet :: rest)), octet :: rest)
      else (some (.next .trailingCharacters (octet :: rest)), octet :: rest)

def endList (bytes : Bytes) : Option Fault × Bytes :=
  match skipBlanks bytes with
  | [] => (some (.here .endInList []), [])
  | octet :: rest =>
      if octet = closeList then (none, rest)
      else if octet = comma then
        match skipBlanks rest with
        | [] => (some (.here .trailingCharacters []), [])
        | next :: tail =>
            let cause := if next = closeList then Cause.trailingComma else .trailingCharacters
            (some (.next cause (next :: tail)), next :: tail)
      else (some (.next .trailingCharacters (octet :: rest)), octet :: rest)

def conclude {α : Type} (close : Bytes → Option Fault × Bytes)
    (result : Except Trouble (α × Bytes)) : Except Fault (α × Bytes) :=
  match result with
  | .ok (value, rest) =>
      match close rest with
      | (none, rest) => .ok (value, rest)
      | (some fault, _) => .error fault
  | .error (.placed fault) => .error fault
  | .error (.unplaced cause rest) => .error (.here cause (close rest).2)

def readRecord (schema : Schema) (bytes : Bytes) : Except Fault (List Value × Bytes) :=
  match skipBlanks bytes with
  | [] => .error (.here .endInValue [])
  | octet :: rest =>
      if octet = openList then conclude endList (readElements schema schema.fields 0 rest)
      else if octet = openMap then
        conclude endMap do
          let (slots, rest) ← readMembers (rest.length + 1) true schema.slots rest
          return (← settle slots rest, rest)
      else .error (refuse s!"struct {schema.name}" (octet :: rest))

def readEnd {α : Type} : α × Bytes → Except Fault α
  | (value, rest) =>
      match skipBlanks rest with
      | [] => .ok value
      | octet :: tail => .error (.next .trailingCharacters (octet :: tail))

def Schema.decode (schema : Schema) (bytes : Bytes) : Except Fault (List Value) :=
  readRecord schema bytes >>= readEnd

end Whole

end DeadDrop.Json
