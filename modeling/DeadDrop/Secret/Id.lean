import DeadDrop.Bytes
import DeadDrop.Random.Source

/-!
Names of secrets: sixteen octets, written as thirty-two lower-case hexadecimal digits in groups
of eight, four, four, four and twelve. Only that form is read. A fresh name is random except for
the six bits that say so.
-/

namespace DeadDrop

structure SecretId where
  octets : Sized 16
  deriving DecidableEq

namespace SecretId

def textLength : Nat := 36

def isDash (position : Nat) : Bool :=
  position = 8 || position = 13 || position = 18 || position = 23

def isLowerHex (c : Char) : Bool := ('0' ≤ c && c ≤ '9') || ('a' ≤ c && c ≤ 'f')

def isCanonicalAt (position : Nat) (c : Char) : Bool :=
  if isDash position then c = '-' else isLowerHex c

def areCanonical (chars : List Char) : Bool :=
  chars.length = textLength && chars.zipIdx.all fun (c, position) => isCanonicalAt position c

def isCanonical (text : String) : Bool := areCanonical text.toList

def groups : List Nat := [4, 2, 2, 2]

def writeGroups : List Nat → Bytes → List Char
  | [], bytes => Hex.encode bytes
  | size :: sizes, bytes =>
      Hex.encode (bytes.take size) ++ '-' :: writeGroups sizes (bytes.drop size)

def write (id : SecretId) : List Char := writeGroups groups id.octets.val

def text (id : SecretId) : String := String.ofList (write id)

def readGroups? : List Nat → List Char → Option Bytes
  | [], chars => Hex.decode? chars
  | size :: sizes, chars =>
      match chars.drop (2 * size) with
      | '-' :: rest =>
          (Hex.decode? (chars.take (2 * size))).bind fun front =>
            (readGroups? sizes rest).map fun back => front ++ back
      | _ => none

def readHyphenated? (chars : List Char) : Option SecretId :=
  (readGroups? groups chars).bind fun bytes => (Sized.ofBytes? 16 bytes).map SecretId.mk

def read? (chars : List Char) : Option SecretId :=
  if areCanonical chars then readHyphenated? chars else none

def ofText? (text : String) : Option SecretId := read? text.toList

/-- Octet 6 carries the version in its high half, octet 8 the variant in its two highest bits. -/
def stampAt (position : Nat) (octet : UInt8) : UInt8 :=
  if position = 6 then (octet &&& 0x0F) ||| 0x40
  else if position = 8 then (octet &&& 0x3F) ||| 0x80
  else octet

def ofRandom (random : Sized 16) : SecretId :=
  ⟨random.val.mapIdx stampAt, by simp [random.property]⟩

def version (id : SecretId) : Nat := (id.octets.val.getD 6 0).toNat / 16

def zero : SecretId := ⟨Sized.filled 16 0⟩

instance : LT SecretId := ⟨fun left right => left.octets.val < right.octets.val⟩

instance (left right : SecretId) : Decidable (left < right) :=
  inferInstanceAs (Decidable (left.octets.val < right.octets.val))

def draw {State : Type} (source : Random.Source State) (state : State) : SecretId × State :=
  let (random, state) := source.draw state 16
  (ofRandom random, state)

end SecretId

end DeadDrop
