import DeadDrop.Proofs.Text.Utf8
import DeadDrop.Url.Host

/-!
What percent-encoding leaves as it is, and what it never leaves. An escape is made of characters
that no part of a URL escapes, so no character that is to be escaped is left; and a text without
one is its own encoding.
-/

namespace DeadDrop.Url

namespace Percent

variable {escaped : Char → Bool} {chars : List Char}

theorem decode_of_plain {bytes : Bytes} (plain : percentSign ∉ bytes) : decode bytes = bytes := by
  fun_induction decode bytes with
  | case1 => rfl
  | case2 octet => rfl
  | case3 octet last => rfl
  | case4 => exact absurd List.mem_cons_self plain
  | case5 => exact absurd List.mem_cons_self plain
  | case6 octet high low rest other ih =>
      rw [ih fun member => plain (List.mem_cons_of_mem _ member)]

theorem encode_cons (c : Char) (rest : List Char) :
    encode escaped (c :: rest) =
      (if escaped c then escapeChar c else [c]) ++ encode escaped rest := rfl

theorem encode_append (left right : List Char) :
    encode escaped (left ++ right) = encode escaped left ++ encode escaped right :=
  List.flatMap_append

theorem encode_of_unescaped (plain : ∀ c ∈ chars, escaped c = false) :
    encode escaped chars = chars := by
  induction chars with
  | nil => rfl
  | cons c rest ih =>
      obtain ⟨here, later⟩ := List.forall_mem_cons.mp plain
      rw [encode_cons, here, ih later]
      rfl

theorem forall_mem_escapeChar (holds : Char → Prop) (mark : holds '%')
    (digits : ∀ nibble < 16, holds (digit nibble)) (c : Char) : ∀ d ∈ escapeChar c, holds d := by
  intro d member
  obtain ⟨octet, -, written⟩ := List.mem_flatMap.mp member
  have small := octet.toNat_lt
  simp only [escapeOctet, List.mem_cons, List.not_mem_nil, or_false] at written
  rcases written with rfl | rfl | rfl
  · exact mark
  · exact digits _ (by omega)
  · exact digits _ (by omega)

theorem unescaped_of_mem_encode (mark : escaped '%' = false)
    (digits : ∀ nibble < 16, escaped (digit nibble) = false) :
    ∀ d ∈ encode escaped chars, escaped d = false := by
  intro d member
  obtain ⟨c, -, written⟩ := List.mem_flatMap.mp member
  split at written
  · exact forall_mem_escapeChar (fun d => escaped d = false) mark digits c d written
  · next kept =>
      rw [List.mem_singleton.mp written]
      exact eq_false_of_ne_true kept

end Percent

section Ascii

variable {chars : List Char}

theorem toNat_octet {c : Char} (small : c.toNat < 0x80) : (UInt8.ofNat c.toNat).toNat = c.toNat :=
  UInt8.toNat_ofNat_of_lt' (Nat.lt_trans small (by decide))

theorem asciiChar?_octet {c : Char} (small : c.toNat < 0x80) :
    asciiChar? (UInt8.ofNat c.toNat) = some c := by
  have value := toNat_octet small
  have low : UInt8.ofNat c.toNat < 0x80 := by
    rw [UInt8.lt_iff_toNat_lt, value]
    exact small
  rw [asciiChar?, if_pos low, value, Char.ofNat_toNat]

theorem percentSign_not_mem (ascii : ∀ c ∈ chars, c.toNat < 0x80) (clean : '%' ∉ chars) :
    Percent.percentSign ∉ chars.flatMap String.utf8EncodeChar := by
  intro member
  obtain ⟨c, among, here⟩ := List.mem_flatMap.mp member
  have small := ascii c among
  rw [Text.Utf8.utf8EncodeChar_of_ascii small, List.mem_singleton] at here
  have same : c.toNat = '%'.toNat := by
    have value := congrArg UInt8.toNat here
    rw [toNat_octet small] at value
    exact value.symm
  exact clean (Char.toNat_inj.mp same ▸ among)

theorem mapM_asciiChar? (ascii : ∀ c ∈ chars, c.toNat < 0x80) :
    (chars.flatMap String.utf8EncodeChar).mapM asciiChar? = some chars := by
  induction chars with
  | nil => rfl
  | cons c rest ih =>
      obtain ⟨small, later⟩ := List.forall_mem_cons.mp ascii
      rw [List.flatMap_cons, Text.Utf8.utf8EncodeChar_of_ascii small, List.singleton_append,
        List.mapM_cons, asciiChar?_octet small, ih later]
      rfl

end Ascii

end DeadDrop.Url
