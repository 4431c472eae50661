import DeadDrop.Bytes

/-!
UTF-8 over octet lists. One reading step decides everything: it yields a character, or the
length of the longest prefix that could still have begun one. Strict decoding refuses the
second outcome, lossy decoding writes one replacement character for it.
-/

namespace DeadDrop.Text.Utf8

inductive Step where
  | char (value : Char) (rest : Bytes)
  | broken (rest : Bytes)

def isContinuation (octet : UInt8) : Bool := 0x80 ≤ octet && octet ≤ 0xBF

/-- What may follow the leading octet of a three-octet character: no overlong form, no surrogate. -/
def secondOfThree (lead octet : UInt8) : Bool :=
  if lead = 0xE0 then 0xA0 ≤ octet && octet ≤ 0xBF
  else if lead = 0xED then 0x80 ≤ octet && octet ≤ 0x9F
  else isContinuation octet

/-- What may follow the leading octet of a four-octet character: no overlong form, nothing past
U+10FFFF. -/
def secondOfFour (lead octet : UInt8) : Bool :=
  if lead = 0xF0 then 0x90 ≤ octet && octet ≤ 0xBF
  else if lead = 0xF4 then 0x80 ≤ octet && octet ≤ 0x8F
  else isContinuation octet

def low (octet : UInt8) : Nat := octet.toNat % 64

def step (lead : UInt8) (rest : Bytes) : Step :=
  if lead < 0x80 then .char (Char.ofNat lead.toNat) rest
  else if lead < 0xC2 then .broken rest
  else if lead < 0xE0 then
    match rest with
    | second :: tail =>
        if isContinuation second then
          .char (Char.ofNat ((lead.toNat - 0xC0) * 64 + low second)) tail
        else .broken rest
    | [] => .broken rest
  else if lead < 0xF0 then
    match rest with
    | second :: tail =>
        if secondOfThree lead second then
          match tail with
          | third :: tail' =>
              if isContinuation third then
                .char (Char.ofNat (((lead.toNat - 0xE0) * 64 + low second) * 64 + low third)) tail'
              else .broken tail
          | [] => .broken tail
        else .broken rest
    | [] => .broken rest
  else if lead < 0xF5 then
    match rest with
    | second :: tail =>
        if secondOfFour lead second then
          match tail with
          | third :: tail' =>
              if isContinuation third then
                match tail' with
                | fourth :: tail'' =>
                    if isContinuation fourth then
                      .char (Char.ofNat ((((lead.toNat - 0xF0) * 64 + low second) * 64
                        + low third) * 64 + low fourth)) tail''
                    else .broken tail'
                | [] => .broken tail'
              else .broken tail
          | [] => .broken tail
        else .broken rest
    | [] => .broken rest
  else .broken rest

def Step.rest : Step → Bytes
  | .char _ rest | .broken rest => rest

theorem step_rest_length (lead : UInt8) (rest : Bytes) :
    (step lead rest).rest.length ≤ rest.length := by
  unfold step
  repeat' split
  all_goals simp only [Step.rest, List.length_cons]
  all_goals omega

theorem step_char_length {lead : UInt8} {rest tail : Bytes} {c : Char}
    (h : step lead rest = .char c tail) : tail.length ≤ rest.length := by
  simpa [h, Step.rest] using step_rest_length lead rest

theorem step_broken_length {lead : UInt8} {rest tail : Bytes}
    (h : step lead rest = .broken tail) : tail.length ≤ rest.length := by
  simpa [h, Step.rest] using step_rest_length lead rest

/-- Characters in reverse, and what is left from the first octet that begins none. -/
def decodePrefix (done : List Char) : Bytes → List Char × Bytes
  | [] => (done, [])
  | lead :: rest =>
      match h : step lead rest with
      | .char c tail =>
          have := step_char_length h
          decodePrefix (c :: done) tail
      | .broken _ => (done, lead :: rest)
termination_by bytes => bytes.length

def decode? (bytes : Bytes) : Option (List Char) :=
  match decodePrefix [] bytes with
  | (done, []) => some done.reverse
  | (_, _ :: _) => none

/-- How many octets come before the first that begins no character. -/
def validLength (bytes : Bytes) : Nat := bytes.length - (decodePrefix [] bytes).2.length

def replacement : Char := Char.ofNat 0xFFFD

def decodeLossy (bytes : Bytes) : List Char :=
  go [] bytes
where
  go (done : List Char) : Bytes → List Char
    | [] => done.reverse
    | lead :: rest =>
        match h : step lead rest with
        | .char c tail =>
            have := step_char_length h
            go (c :: done) tail
        | .broken tail =>
            have := step_broken_length h
            go (replacement :: done) tail
  termination_by bytes => bytes.length

def encode (chars : List Char) : Bytes := chars.flatMap String.utf8EncodeChar

def bytes (text : String) : Bytes := encode text.toList

def text? (bytes : Bytes) : Option String := (decode? bytes).map String.ofList

def textLossy (bytes : Bytes) : String := String.ofList (decodeLossy bytes)

end DeadDrop.Text.Utf8
