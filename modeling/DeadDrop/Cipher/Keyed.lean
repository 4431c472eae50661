import DeadDrop.Cipher.Aes
import DeadDrop.Cipher.Feedback

/-!
The three ciphers of a message: their numbers on the wire, their key sizes, and the block
function that a key of the right size selects.
-/

namespace DeadDrop.Cipher

inductive Algorithm where
  | aes128
  | aes192
  | aes256
  deriving DecidableEq, Repr

namespace Algorithm

def all : List Algorithm := [aes128, aes192, aes256]

def number : Algorithm → UInt8
  | aes128 => 7
  | aes192 => 8
  | aes256 => 9

def ofNumber? (number : UInt8) : Option Algorithm :=
  all.find? fun algorithm => algorithm.number = number

def keySize : Algorithm → Nat
  | aes128 => 16
  | aes192 => 24
  | aes256 => 32

theorem ofNumber_number (algorithm : Algorithm) : ofNumber? algorithm.number = some algorithm := by
  cases algorithm <;> rfl

end Algorithm

/-- A key that has the size its algorithm asks for. -/
structure Key (algorithm : Algorithm) where
  bytes : Bytes
  length_eq : bytes.length = algorithm.keySize

def Key.ofBytes? (algorithm : Algorithm) (bytes : Bytes) : Option (Key algorithm) :=
  if fits : bytes.length = algorithm.keySize then some ⟨bytes, fits⟩ else none

@[inline] def Key.block {algorithm : Algorithm} (key : Key algorithm) : Bytes → Bytes :=
  Aes.encryptBlock (Aes.roundKeys key.bytes)

end DeadDrop.Cipher
