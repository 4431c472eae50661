import DeadDrop.Digest.Sha1
import DeadDrop.Digest.Sha2

/-!
The digests a message may name, by their numbers on the wire.
-/

namespace DeadDrop.Digest

inductive Algorithm where
  | sha1
  | sha256
  | sha384
  | sha512
  | sha224
  deriving DecidableEq, Repr

namespace Algorithm

def all : List Algorithm := [sha1, sha256, sha384, sha512, sha224]

def number : Algorithm → UInt8
  | sha1 => 2
  | sha256 => 8
  | sha384 => 9
  | sha512 => 10
  | sha224 => 11

def ofNumber? (number : UInt8) : Option Algorithm :=
  all.find? fun algorithm => algorithm.number = number

def digest : Algorithm → Digest
  | sha1 => Digest.sha1
  | sha256 => Digest.sha256
  | sha384 => Digest.sha384
  | sha512 => Digest.sha512
  | sha224 => Digest.sha224

theorem ofNumber_number (algorithm : Algorithm) : ofNumber? algorithm.number = some algorithm := by
  cases algorithm <;> rfl

end Algorithm

end DeadDrop.Digest
