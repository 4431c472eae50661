import DeadDrop.Digest.Basic

/-!
SHA-1: five 32-bit words, eighty rounds in four groups of twenty.
-/

namespace DeadDrop.Digest.Sha1

structure Chain where
  a : UInt32
  b : UInt32
  c : UInt32
  d : UInt32
  e : UInt32

def rotl (x : UInt32) (n : UInt32) : UInt32 := (x <<< n) ||| (x >>> (32 - n))

def words : Bytes → List UInt32
  | a :: b :: c :: d :: rest =>
      (a.toUInt32 <<< 24 ||| b.toUInt32 <<< 16 ||| c.toUInt32 <<< 8 ||| d.toUInt32) :: words rest
  | _ => []

/-- The newest word stands first; sixteen of them decide the next. -/
def extend : Nat → List UInt32 → List UInt32
  | 0, recent => recent
  | more + 1, recent =>
      let at' (i : Nat) : UInt32 := recent.getD i 0
      extend more (rotl (at' 2 ^^^ at' 7 ^^^ at' 13 ^^^ at' 15) 1 :: recent)

def schedule (block : Bytes) : List UInt32 := (extend 64 (words block).reverse).reverse

def mix (round : Nat) (b c d : UInt32) : UInt32 :=
  if round < 20 then (b &&& c) ||| (~~~b &&& d)
  else if round < 40 then b ^^^ c ^^^ d
  else if round < 60 then (b &&& c) ||| (b &&& d) ||| (c &&& d)
  else b ^^^ c ^^^ d

def constant (round : Nat) : UInt32 :=
  if round < 20 then 0x5A827999
  else if round < 40 then 0x6ED9EBA1
  else if round < 60 then 0x8F1BBCDC
  else 0xCA62C1D6

def rounds : Nat → Chain → List UInt32 → Chain
  | _, chain, [] => chain
  | round, ⟨a, b, c, d, e⟩, word :: rest =>
      rounds (round + 1)
        ⟨rotl a 5 + mix round b c d + e + constant round + word, a, rotl b 30, c, d⟩ rest

def compress (chain : Chain) (block : Bytes) : Chain :=
  let next := rounds 0 chain (schedule block)
  ⟨chain.a + next.a, chain.b + next.b, chain.c + next.c, chain.d + next.d, chain.e + next.e⟩

def compression : Compression Chain := ⟨64, 8, compress⟩

def initial : Chain := ⟨0x67452301, 0xEFCDAB89, 0x98BADCFE, 0x10325476, 0xC3D2E1F0⟩

def output (chain : Chain) : Bytes :=
  [chain.a, chain.b, chain.c, chain.d, chain.e].flatMap fun word => Bytes.ofNat 4 word.toNat

end DeadDrop.Digest.Sha1

namespace DeadDrop.Digest

def sha1 : Digest where
  State := Absorbed Sha1.Chain
  start := Compression.begin Sha1.initial
  absorb := Sha1.compression.absorb
  finish state := Sha1.output (Sha1.compression.finish state)
  size := 20
  size_pos := by decide
  length_finish _ := by simp [Sha1.output]

end DeadDrop.Digest
