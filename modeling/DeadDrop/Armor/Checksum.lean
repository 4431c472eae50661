import DeadDrop.Bytes

/-!
The 24-bit cyclic redundancy check of armored text, one octet and one bit at a time. The
generator keeps its top bit, which clears the one that was shifted out.
-/

namespace DeadDrop.Armor

structure Checksum where
  register : UInt32
  deriving DecidableEq

namespace Checksum

def initial : Checksum := ⟨0xB704CE⟩

def generator : UInt32 := 0x1864CFB

def shift (register : UInt32) : UInt32 :=
  let moved := register <<< 1
  if moved &&& 0x1000000 = 0 then moved else moved ^^^ generator

def absorb (checksum : Checksum) (octet : UInt8) : Checksum :=
  ⟨Nat.repeat shift 8 (checksum.register ^^^ (octet.toUInt32 <<< 16))⟩

def update (checksum : Checksum) (bytes : Bytes) : Checksum := bytes.foldl absorb checksum

def ofBytes (bytes : Bytes) : Checksum := initial.update bytes

def value (checksum : Checksum) : UInt32 := checksum.register &&& 0xFFFFFF

def toBytes (checksum : Checksum) : Bytes := Bytes.ofNat 3 checksum.value.toNat

theorem update_append (checksum : Checksum) (left right : Bytes) :
    checksum.update (left ++ right) = (checksum.update left).update right :=
  List.foldl_append

end Checksum

end DeadDrop.Armor
