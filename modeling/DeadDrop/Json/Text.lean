import DeadDrop.Json.Fault
import DeadDrop.Text.Utf8

/-!
JSON strings. Reading undoes escapes octet by octet and then requires UTF-8; writing escapes
quotes, backslashes and control characters and nothing else.
-/

namespace DeadDrop.Json

def quoteMark : UInt8 := 0x22
def backslash : UInt8 := 0x5C
def unicodeMark : UInt8 := 0x75

def shortEscapes : List (UInt8 × UInt8) :=
  [(0x22, 0x22), (0x5C, 0x5C), (0x2F, 0x2F), (0x62, 0x08), (0x66, 0x0C), (0x6E, 0x0A),
    (0x72, 0x0D), (0x74, 0x09)]

section Read

def readHex : Bytes → Except Fault (Nat × Bytes)
  | a :: b :: c :: d :: rest =>
      match Hex.octetValue? a, Hex.octetValue? b, Hex.octetValue? c, Hex.octetValue? d with
      | some a, some b, some c, some d => .ok (((a * 16 + b) * 16 + c) * 16 + d, rest)
      | _, _, _, _ => .error (.here .invalidEscape rest)
  | _ => .error (.here .endInString [])

def isLeading (unit : Nat) : Bool := 0xD800 ≤ unit && unit ≤ 0xDBFF
def isTrailing (unit : Nat) : Bool := 0xDC00 ≤ unit && unit ≤ 0xDFFF

def encodePoint (point : Nat) : Bytes := String.utf8EncodeChar (Char.ofNat point)

def pairPoint (leading trailing : Nat) : Nat :=
  0x10000 + (leading - 0xD800) * 1024 + (trailing - 0xDC00)

/-- The second half of a surrogate pair must follow as an escape of its own. -/
def readTrailing (leading : Nat) : Bytes → Except Fault (Bytes × Bytes)
  | [] => .error (.here .endInString [])
  | [only] =>
      if only = backslash then .error (.here .endInString [])
      else .error (.here .unfinishedSurrogate [])
  | first :: second :: rest =>
      if first ≠ backslash then .error (.here .unfinishedSurrogate (second :: rest))
      else if second ≠ unicodeMark then .error (.here .unfinishedSurrogate rest)
      else
        match readHex rest with
        | .error fault => .error fault
        | .ok (unit, rest) =>
            if isTrailing unit then .ok (encodePoint (pairPoint leading unit), rest)
            else .error (.here .loneSurrogate rest)

def readUnicode (bytes : Bytes) : Except Fault (Bytes × Bytes) :=
  match readHex bytes with
  | .error fault => .error fault
  | .ok (unit, rest) =>
      if isTrailing unit then .error (.here .loneSurrogate rest)
      else if isLeading unit then readTrailing unit rest
      else .ok (encodePoint unit, rest)

def readEscape : Bytes → Except Fault (Bytes × Bytes)
  | [] => .error (.here .endInString [])
  | letter :: rest =>
      match shortEscapes.lookup letter with
      | some octet => .ok ([octet], rest)
      | none =>
          if letter = unicodeMark then readUnicode rest
          else .error (.here .invalidEscape rest)

theorem readHex_length {bytes rest : Bytes} {value : Nat}
    (read : readHex bytes = .ok (value, rest)) : rest.length ≤ bytes.length := by
  unfold readHex at read
  repeat' split at read
  · simp only [Except.ok.injEq, Prod.mk.injEq] at read
    simp only [← read.2, List.length_cons]
    omega
  · cases read
  · cases read

theorem readTrailing_length {leading : Nat} {bytes out rest : Bytes}
    (read : readTrailing leading bytes = .ok (out, rest)) : rest.length ≤ bytes.length := by
  unfold readTrailing at read
  repeat' split at read
  all_goals try contradiction
  next hex _ =>
    have := readHex_length hex
    simp only [Except.ok.injEq, Prod.mk.injEq] at read
    simp only [← read.2, List.length_cons]
    omega

theorem readUnicode_length {bytes out rest : Bytes}
    (read : readUnicode bytes = .ok (out, rest)) : rest.length ≤ bytes.length := by
  unfold readUnicode at read
  split at read
  · cases read
  · next hex =>
    have first := readHex_length hex
    split at read
    · cases read
    · split at read
      · exact Nat.le_trans (readTrailing_length read) first
      · simp only [Except.ok.injEq, Prod.mk.injEq] at read
        exact read.2 ▸ first

theorem readEscape_length {bytes out rest : Bytes}
    (read : readEscape bytes = .ok (out, rest)) : rest.length < bytes.length := by
  unfold readEscape at read
  repeat' split at read
  · cases read
  · simp only [Except.ok.injEq, Prod.mk.injEq] at read
    simp [read.2]
  · exact Nat.lt_succ_of_le (readUnicode_length read)
  · cases read

/-- The octets of the string so far are in `done`, newest first. -/
def unescape (done : Bytes) (bytes : Bytes) : Except Fault (Bytes × Bytes) :=
  match bytes with
  | [] => .error (.here .endInString [])
  | octet :: rest =>
      if octet = quoteMark then .ok (done.reverse, rest)
      else if octet = backslash then
        match h : readEscape rest with
        | .error fault => .error fault
        | .ok (out, tail) =>
            have := readEscape_length h
            unescape (out.reverse ++ done) tail
      else if octet < 0x20 then .error (.here .controlCharacter rest)
      else unescape (octet :: done) rest
termination_by bytes.length

def readText (bytes : Bytes) : Except Fault (String × Bytes) := do
  let (octets, rest) ← unescape [] bytes
  match Text.Utf8.text? octets with
  | some text => return (text, rest)
  | none =>
      let written := bytes.take (bytes.length - rest.length)
      .error ⟨.invalidUnicode, bytes.length - (Text.Utf8.validLength written + 1)⟩

/-- A string whose content does not matter: escapes need only have their form. -/
def skipEscape : Bytes → Except Fault Bytes
  | [] => .error (.here .endInString [])
  | letter :: rest =>
      match shortEscapes.lookup letter with
      | some _ => .ok rest
      | none =>
          if letter = unicodeMark then
            match readHex rest with
            | .ok (_, rest) => .ok rest
            | .error fault => .error fault
          else .error (.here .invalidEscape rest)

theorem skipEscape_length {bytes rest : Bytes} (skipped : skipEscape bytes = .ok rest) :
    rest.length < bytes.length := by
  unfold skipEscape at skipped
  repeat' split at skipped
  · cases skipped
  · cases skipped; simp
  · next hex =>
    cases skipped
    exact Nat.lt_succ_of_le (readHex_length hex)
  · cases skipped
  · cases skipped

def skipText (bytes : Bytes) : Except Fault Bytes :=
  match bytes with
  | [] => .error (.here .endInString [])
  | octet :: rest =>
      if octet = quoteMark then .ok rest
      else if octet = backslash then
        match h : skipEscape rest with
        | .error fault => .error fault
        | .ok tail =>
            have := skipEscape_length h
            skipText tail
      else if octet < 0x20 then .error (.here .controlCharacter (octet :: rest))
      else skipText rest
termination_by bytes.length

end Read

section Write

def escapeChar (c : Char) : List Char :=
  match c with
  | '"' => ['\\', '"']
  | '\\' => ['\\', '\\']
  | '\n' => ['\\', 'n']
  | '\r' => ['\\', 'r']
  | '\t' => ['\\', 't']
  | c =>
      if c.toNat = 8 then ['\\', 'b']
      else if c.toNat = 12 then ['\\', 'f']
      else if c.toNat < 0x20 then
        ['\\', 'u', '0', '0', Hex.digit (c.toNat / 16), Hex.digit (c.toNat % 16)]
      else [c]

def writeText (text : String) : List Char := '"' :: text.toList.flatMap escapeChar ++ ['"']

end Write

end DeadDrop.Json
