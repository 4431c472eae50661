import DeadDrop.Digest.Basic

/-!
The SHA-2 family. SHA-224 and SHA-256 work on 32-bit words in 64 rounds, SHA-384 and SHA-512 on
64-bit words in 80; within a pair only the starting values and the length of the output differ.
-/

namespace DeadDrop.Digest.Sha2

structure Chain (Word : Type) where
  a : Word
  b : Word
  c : Word
  d : Word
  e : Word
  f : Word
  g : Word
  h : Word

def Chain.map₂ {Word : Type} (op : Word → Word → Word) (x y : Chain Word) : Chain Word :=
  ⟨op x.a y.a, op x.b y.b, op x.c y.c, op x.d y.d, op x.e y.e, op x.f y.f, op x.g y.g, op x.h y.h⟩

def Chain.toList {Word : Type} (x : Chain Word) : List Word :=
  [x.a, x.b, x.c, x.d, x.e, x.f, x.g, x.h]

section Words32

def constants32 : List UInt32 := [
  0x428A2F98, 0x71374491, 0xB5C0FBCF, 0xE9B5DBA5, 0x3956C25B, 0x59F111F1, 0x923F82A4,
  0xAB1C5ED5, 0xD807AA98, 0x12835B01, 0x243185BE, 0x550C7DC3, 0x72BE5D74, 0x80DEB1FE,
  0x9BDC06A7, 0xC19BF174, 0xE49B69C1, 0xEFBE4786, 0x0FC19DC6, 0x240CA1CC, 0x2DE92C6F,
  0x4A7484AA, 0x5CB0A9DC, 0x76F988DA, 0x983E5152, 0xA831C66D, 0xB00327C8, 0xBF597FC7,
  0xC6E00BF3, 0xD5A79147, 0x06CA6351, 0x14292967, 0x27B70A85, 0x2E1B2138, 0x4D2C6DFC,
  0x53380D13, 0x650A7354, 0x766A0ABB, 0x81C2C92E, 0x92722C85, 0xA2BFE8A1, 0xA81A664B,
  0xC24B8B70, 0xC76C51A3, 0xD192E819, 0xD6990624, 0xF40E3585, 0x106AA070, 0x19A4C116,
  0x1E376C08, 0x2748774C, 0x34B0BCB5, 0x391C0CB3, 0x4ED8AA4A, 0x5B9CCA4F, 0x682E6FF3,
  0x748F82EE, 0x78A5636F, 0x84C87814, 0x8CC70208, 0x90BEFFFA, 0xA4506CEB, 0xBEF9A3F7,
  0xC67178F2]

def rotr32 (x n : UInt32) : UInt32 := (x >>> n) ||| (x <<< (32 - n))

def words32 : Bytes → List UInt32
  | a :: b :: c :: d :: rest =>
      (a.toUInt32 <<< 24 ||| b.toUInt32 <<< 16 ||| c.toUInt32 <<< 8 ||| d.toUInt32) :: words32 rest
  | _ => []

def extend32 : Nat → List UInt32 → List UInt32
  | 0, recent => recent
  | more + 1, recent =>
      let at' (i : Nat) : UInt32 := recent.getD i 0
      let early := at' 14
      let late := at' 1
      let next := (rotr32 late 17 ^^^ rotr32 late 19 ^^^ (late >>> 10)) + at' 6
        + (rotr32 early 7 ^^^ rotr32 early 18 ^^^ (early >>> 3)) + at' 15
      extend32 more (next :: recent)

def schedule32 (block : Bytes) : List UInt32 :=
  (extend32 48 (words32 block).reverse).reverse

def round32 (x : Chain UInt32) (constant word : UInt32) : Chain UInt32 :=
  let choice := (x.e &&& x.f) ^^^ (~~~x.e &&& x.g)
  let majority := (x.a &&& x.b) ^^^ (x.a &&& x.c) ^^^ (x.b &&& x.c)
  let first := x.h + (rotr32 x.e 6 ^^^ rotr32 x.e 11 ^^^ rotr32 x.e 25) + choice + constant + word
  let second := (rotr32 x.a 2 ^^^ rotr32 x.a 13 ^^^ rotr32 x.a 22) + majority
  ⟨first + second, x.a, x.b, x.c, x.d + first, x.e, x.f, x.g⟩

def rounds32 : Chain UInt32 → List UInt32 → List UInt32 → Chain UInt32
  | chain, constant :: constants, word :: words =>
      rounds32 (round32 chain constant word) constants words
  | chain, _, _ => chain

def compress32 (chain : Chain UInt32) (block : Bytes) : Chain UInt32 :=
  chain.map₂ (· + ·) (rounds32 chain constants32 (schedule32 block))

def compression32 : Compression (Chain UInt32) := ⟨64, 8, compress32⟩

def output32 (chain : Chain UInt32) : Bytes :=
  chain.toList.flatMap fun word => Bytes.ofNat 4 word.toNat

end Words32

section Words64

def constants64 : List UInt64 := [
  0x428A2F98D728AE22, 0x7137449123EF65CD, 0xB5C0FBCFEC4D3B2F, 0xE9B5DBA58189DBBC,
  0x3956C25BF348B538, 0x59F111F1B605D019, 0x923F82A4AF194F9B, 0xAB1C5ED5DA6D8118,
  0xD807AA98A3030242, 0x12835B0145706FBE, 0x243185BE4EE4B28C, 0x550C7DC3D5FFB4E2,
  0x72BE5D74F27B896F, 0x80DEB1FE3B1696B1, 0x9BDC06A725C71235, 0xC19BF174CF692694,
  0xE49B69C19EF14AD2, 0xEFBE4786384F25E3, 0x0FC19DC68B8CD5B5, 0x240CA1CC77AC9C65,
  0x2DE92C6F592B0275, 0x4A7484AA6EA6E483, 0x5CB0A9DCBD41FBD4, 0x76F988DA831153B5,
  0x983E5152EE66DFAB, 0xA831C66D2DB43210, 0xB00327C898FB213F, 0xBF597FC7BEEF0EE4,
  0xC6E00BF33DA88FC2, 0xD5A79147930AA725, 0x06CA6351E003826F, 0x142929670A0E6E70,
  0x27B70A8546D22FFC, 0x2E1B21385C26C926, 0x4D2C6DFC5AC42AED, 0x53380D139D95B3DF,
  0x650A73548BAF63DE, 0x766A0ABB3C77B2A8, 0x81C2C92E47EDAEE6, 0x92722C851482353B,
  0xA2BFE8A14CF10364, 0xA81A664BBC423001, 0xC24B8B70D0F89791, 0xC76C51A30654BE30,
  0xD192E819D6EF5218, 0xD69906245565A910, 0xF40E35855771202A, 0x106AA07032BBD1B8,
  0x19A4C116B8D2D0C8, 0x1E376C085141AB53, 0x2748774CDF8EEB99, 0x34B0BCB5E19B48A8,
  0x391C0CB3C5C95A63, 0x4ED8AA4AE3418ACB, 0x5B9CCA4F7763E373, 0x682E6FF3D6B2B8A3,
  0x748F82EE5DEFB2FC, 0x78A5636F43172F60, 0x84C87814A1F0AB72, 0x8CC702081A6439EC,
  0x90BEFFFA23631E28, 0xA4506CEBDE82BDE9, 0xBEF9A3F7B2C67915, 0xC67178F2E372532B,
  0xCA273ECEEA26619C, 0xD186B8C721C0C207, 0xEADA7DD6CDE0EB1E, 0xF57D4F7FEE6ED178,
  0x06F067AA72176FBA, 0x0A637DC5A2C898A6, 0x113F9804BEF90DAE, 0x1B710B35131C471B,
  0x28DB77F523047D84, 0x32CAAB7B40C72493, 0x3C9EBE0A15C9BEBC, 0x431D67C49C100D4C,
  0x4CC5D4BECB3E42B6, 0x597F299CFC657E2A, 0x5FCB6FAB3AD6FAEC, 0x6C44198C4A475817]

def rotr64 (x n : UInt64) : UInt64 := (x >>> n) ||| (x <<< (64 - n))

def words64 : Bytes → List UInt64
  | a :: b :: c :: d :: e :: f :: g :: h :: rest =>
      (a.toUInt64 <<< 56 ||| b.toUInt64 <<< 48 ||| c.toUInt64 <<< 40 ||| d.toUInt64 <<< 32
        ||| e.toUInt64 <<< 24 ||| f.toUInt64 <<< 16 ||| g.toUInt64 <<< 8 ||| h.toUInt64)
        :: words64 rest
  | _ => []

def extend64 : Nat → List UInt64 → List UInt64
  | 0, recent => recent
  | more + 1, recent =>
      let at' (i : Nat) : UInt64 := recent.getD i 0
      let early := at' 14
      let late := at' 1
      let next := (rotr64 late 19 ^^^ rotr64 late 61 ^^^ (late >>> 6)) + at' 6
        + (rotr64 early 1 ^^^ rotr64 early 8 ^^^ (early >>> 7)) + at' 15
      extend64 more (next :: recent)

def schedule64 (block : Bytes) : List UInt64 :=
  (extend64 64 (words64 block).reverse).reverse

def round64 (x : Chain UInt64) (constant word : UInt64) : Chain UInt64 :=
  let choice := (x.e &&& x.f) ^^^ (~~~x.e &&& x.g)
  let majority := (x.a &&& x.b) ^^^ (x.a &&& x.c) ^^^ (x.b &&& x.c)
  let first := x.h + (rotr64 x.e 14 ^^^ rotr64 x.e 18 ^^^ rotr64 x.e 41) + choice + constant + word
  let second := (rotr64 x.a 28 ^^^ rotr64 x.a 34 ^^^ rotr64 x.a 39) + majority
  ⟨first + second, x.a, x.b, x.c, x.d + first, x.e, x.f, x.g⟩

def rounds64 : Chain UInt64 → List UInt64 → List UInt64 → Chain UInt64
  | chain, constant :: constants, word :: words =>
      rounds64 (round64 chain constant word) constants words
  | chain, _, _ => chain

def compress64 (chain : Chain UInt64) (block : Bytes) : Chain UInt64 :=
  chain.map₂ (· + ·) (rounds64 chain constants64 (schedule64 block))

def compression64 : Compression (Chain UInt64) := ⟨128, 16, compress64⟩

def output64 (chain : Chain UInt64) : Bytes :=
  chain.toList.flatMap fun word => Bytes.ofNat 8 word.toNat

end Words64

def initial224 : Chain UInt32 :=
  ⟨0xC1059ED8, 0x367CD507, 0x3070DD17, 0xF70E5939, 0xFFC00B31, 0x68581511, 0x64F98FA7, 0xBEFA4FA4⟩

def initial256 : Chain UInt32 :=
  ⟨0x6A09E667, 0xBB67AE85, 0x3C6EF372, 0xA54FF53A, 0x510E527F, 0x9B05688C, 0x1F83D9AB, 0x5BE0CD19⟩

def initial384 : Chain UInt64 :=
  ⟨0xCBBB9D5DC1059ED8, 0x629A292A367CD507, 0x9159015A3070DD17, 0x152FECD8F70E5939,
   0x67332667FFC00B31, 0x8EB44A8768581511, 0xDB0C2E0D64F98FA7, 0x47B5481DBEFA4FA4⟩

def initial512 : Chain UInt64 :=
  ⟨0x6A09E667F3BCC908, 0xBB67AE8584CAA73B, 0x3C6EF372FE94F82B, 0xA54FF53A5F1D36F1,
   0x510E527FADE682D1, 0x9B05688C2B3E6C1F, 0x1F83D9ABFB41BD6B, 0x5BE0CD19137E2179⟩

end DeadDrop.Digest.Sha2

namespace DeadDrop.Digest

def sha224 : Digest where
  State := Absorbed (Sha2.Chain UInt32)
  start := Compression.begin Sha2.initial224
  absorb := Sha2.compression32.absorb
  finish state := (Sha2.output32 (Sha2.compression32.finish state)).take 28
  size := 28
  size_pos := by decide
  length_finish _ := by simp [Sha2.output32, Sha2.Chain.toList]

def sha256 : Digest where
  State := Absorbed (Sha2.Chain UInt32)
  start := Compression.begin Sha2.initial256
  absorb := Sha2.compression32.absorb
  finish state := Sha2.output32 (Sha2.compression32.finish state)
  size := 32
  size_pos := by decide
  length_finish _ := by simp [Sha2.output32, Sha2.Chain.toList]

def sha384 : Digest where
  State := Absorbed (Sha2.Chain UInt64)
  start := Compression.begin Sha2.initial384
  absorb := Sha2.compression64.absorb
  finish state := (Sha2.output64 (Sha2.compression64.finish state)).take 48
  size := 48
  size_pos := by decide
  length_finish _ := by simp [Sha2.output64, Sha2.Chain.toList]

def sha512 : Digest where
  State := Absorbed (Sha2.Chain UInt64)
  start := Compression.begin Sha2.initial512
  absorb := Sha2.compression64.absorb
  finish state := Sha2.output64 (Sha2.compression64.finish state)
  size := 64
  size_pos := by decide
  length_finish _ := by simp [Sha2.output64, Sha2.Chain.toList]

end DeadDrop.Digest
