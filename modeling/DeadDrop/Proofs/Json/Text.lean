import DeadDrop.Json.Text
import DeadDrop.Proofs.Text.Utf8

/-!
A JSON string is read as it was written, whatever characters it holds. Escaped or not, each
character leaves its own octets behind, so what the reader has gathered at the closing quote is the
text in UTF-8.
-/

namespace DeadDrop.Json

open Text.Utf8 (encode encode_append)

section Octets

variable (done : Bytes) {octet : UInt8} {bytes out rest : Bytes}

theorem unescape_quote : unescape done (quoteMark :: rest) = .ok (done.reverse, rest) := by
  rw [unescape, if_pos rfl]

theorem unescape_escape (read : readEscape bytes = .ok (out, rest)) :
    unescape done (backslash :: bytes) = unescape (out.reverse ++ done) rest := by
  have other : backslash ≠ quoteMark := by decide
  rw [unescape, if_neg other, if_pos rfl]
  split
  · next fault failed =>
      rw [read] at failed
      cases failed
  · next out' tail found =>
      rw [read] at found
      cases found
      rfl

/-- An octet that a string may hold as it is. -/
structure Plain (octet : UInt8) : Prop where
  visible : ¬ octet < 0x20
  notQuote : octet ≠ quoteMark
  notBackslash : octet ≠ backslash

theorem unescape_plain (plain : Plain octet) (rest : Bytes) :
    unescape done (octet :: rest) = unescape (octet :: done) rest := by
  rw [unescape, if_neg plain.notQuote, if_neg plain.notBackslash, if_neg plain.visible]

theorem unescape_plains (plain : ∀ octet ∈ bytes, Plain octet) (rest : Bytes) :
    unescape done (bytes ++ rest) = unescape (bytes.reverse ++ done) rest := by
  induction bytes generalizing done with
  | nil => rfl
  | cons octet others ih =>
      obtain ⟨first, later⟩ := List.forall_mem_cons.mp plain
      rw [List.cons_append, unescape_plain done first, ih (octet :: done) later]
      simp

end Octets

section Characters

theorem plain_of_large {octet : UInt8} (large : 128 ≤ octet.toNat) : Plain octet := by
  refine ⟨?_, ?_, ?_⟩
  · rw [UInt8.lt_iff_toNat_lt]
    exact Nat.not_lt.mpr (Nat.le_trans (show 32 ≤ 128 by decide) large)
  · rintro rfl
    exact absurd large (by decide)
  · rintro rfl
    exact absurd large (by decide)

theorem plain_of_visible {c : Char} (visible : 0x20 ≤ c.toNat) (notQuote : c ≠ '"')
    (notBackslash : c ≠ '\\') : ∀ octet ∈ String.utf8EncodeChar c, Plain octet := by
  have known : c.val.toNat = c.toNat := rfl
  have large (value : Nat) (above : 128 ≤ value) (small : value < 256) :
      Plain (UInt8.ofNat value) := by
    apply plain_of_large
    rw [Text.Utf8.toNat_octet small]
    exact above
  unfold String.utf8EncodeChar
  simp only [known]
  split
  · -- One octet, which is the number of the character.
    intro octet member
    rw [List.mem_singleton.mp member]
    have value : (UInt8.ofNat c.toNat).toNat = c.toNat := Text.Utf8.toNat_octet (by omega)
    have differs (other : Char) (apart : c ≠ other) : c.toNat ≠ other.toNat :=
      fun same => apart (Char.toNat_inj.mp same)
    refine ⟨?_, ?_, ?_⟩
    · rw [UInt8.lt_iff_toNat_lt, value]
      exact Nat.not_lt.mpr visible
    · intro same
      rw [same] at value
      exact differs '"' notQuote value.symm
    · intro same
      rw [same] at value
      exact differs '\\' notBackslash value.symm
  -- Two, three or four octets, all past ASCII.
  · repeat' split
    all_goals
      simp only [List.forall_mem_cons, List.not_mem_nil, false_imp_iff, implies_true, and_true]
    · exact ⟨large _ (by omega) (by omega), large _ (by omega) (by omega)⟩
    · exact ⟨large _ (by omega) (by omega), large _ (by omega) (by omega),
        large _ (by omega) (by omega)⟩
    · exact ⟨large _ (by omega) (by omega), large _ (by omega) (by omega),
        large _ (by omega) (by omega), large _ (by omega) (by omega)⟩

variable (done rest : Bytes)

theorem unescape_short {letter octet : UInt8}
    (known : shortEscapes.lookup letter = some octet) :
    unescape done (backslash :: letter :: rest) = unescape (octet :: done) rest := by
  have read : readEscape (letter :: rest) = .ok ([octet], rest) := by
    simp only [readEscape, known]
  rw [unescape_escape done read]
  rfl

def hexOctet (nibble : Nat) : UInt8 := UInt8.ofNat (Hex.digit nibble).toNat

theorem octetValue_hexOctet : ∀ nibble < 16, Hex.octetValue? (hexOctet nibble) = some nibble ∧
    String.utf8EncodeChar (Hex.digit nibble) = [hexOctet nibble] := by
  decide +kernel

theorem unescape_control {number : Nat} (small : number < 0x20) :
    unescape done (backslash :: unicodeMark :: hexOctet 0 :: hexOctet 0 ::
        hexOctet (number / 16) :: hexOctet (number % 16) :: rest) =
      unescape ((String.utf8EncodeChar (Char.ofNat number)).reverse ++ done) rest := by
  have zero := (octetValue_hexOctet 0 (by decide)).1
  have high := (octetValue_hexOctet (number / 16) (by omega)).1
  have low := (octetValue_hexOctet (number % 16) (by omega)).1
  have value : ((0 * 16 + 0) * 16 + number / 16) * 16 + number % 16 = number := by omega
  have hex : readHex (hexOctet 0 :: hexOctet 0 :: hexOctet (number / 16) ::
      hexOctet (number % 16) :: rest) = .ok (number, rest) := by
    simp only [readHex, zero, high, low, value]
  have notTrailing : isTrailing number = false := by
    simp [isTrailing]
    omega
  have notLeading : isLeading number = false := by
    simp [isLeading]
    omega
  have unlisted : shortEscapes.lookup unicodeMark = none := by decide
  refine unescape_escape done ?_
  simp [readEscape, unlisted, readUnicode, hex, notTrailing, notLeading, encodePoint]

theorem unescape_escapeChar (c : Char) :
    unescape done (encode (escapeChar c) ++ rest) =
      unescape ((String.utf8EncodeChar c).reverse ++ done) rest := by
  unfold escapeChar
  split
  · exact unescape_short done rest (by decide : shortEscapes.lookup 0x22 = some 0x22)
  · exact unescape_short done rest (by decide : shortEscapes.lookup 0x5C = some 0x5C)
  · exact unescape_short done rest (by decide : shortEscapes.lookup 0x6E = some 0x0A)
  · exact unescape_short done rest (by decide : shortEscapes.lookup 0x72 = some 0x0D)
  · exact unescape_short done rest (by decide : shortEscapes.lookup 0x74 = some 0x09)
  · next notQuote notBackslash _ _ _ =>
    have same (number : Nat) (value : c.toNat = number) : c = Char.ofNat number := by
      rw [← value, Char.ofNat_toNat]
    split
    · next eight =>
        rw [same 8 eight]
        exact unescape_short done rest (by decide : shortEscapes.lookup 0x62 = some 0x08)
    · split
      · next twelve =>
          rw [same 12 twelve]
          exact unescape_short done rest (by decide : shortEscapes.lookup 0x66 = some 0x0C)
      · split
        · next control =>
            have written : encode ['\\', 'u', '0', '0', Hex.digit (c.toNat / 16),
                Hex.digit (c.toNat % 16)] = [backslash, unicodeMark, hexOctet 0, hexOctet 0,
                  hexOctet (c.toNat / 16), hexOctet (c.toNat % 16)] := by
              have high := (octetValue_hexOctet (c.toNat / 16) (by omega)).2
              have low := (octetValue_hexOctet (c.toNat % 16) (by omega)).2
              simp only [encode, List.flatMap_cons, List.flatMap_nil, high, low]
              rfl
            have read := unescape_control done rest control
            rw [Char.ofNat_toNat] at read
            rw [written]
            exact read
        · next visible =>
            have plain := plain_of_visible (Nat.not_lt.mp visible) notQuote notBackslash
            rw [Text.Utf8.encode_cons]
            have none : encode [] = [] := rfl
            rw [none, List.append_nil]
            exact unescape_plains done plain rest

end Characters

section Strings

theorem unescape_written (chars : List Char) (done rest : Bytes) :
    unescape done (encode (chars.flatMap escapeChar) ++ quoteMark :: rest) =
      .ok (done.reverse ++ encode chars, rest) := by
  induction chars generalizing done with
  | nil =>
      rw [List.flatMap_nil]
      exact (unescape_quote done).trans (by simp [encode])
  | cons c chars ih =>
      rw [List.flatMap_cons, encode_append, List.append_assoc, unescape_escapeChar, ih,
        Text.Utf8.encode_cons]
      simp

theorem readText_writeText (text : String) (rest : Bytes) :
    ∃ inside, encode (writeText text) ++ rest = quoteMark :: inside ∧
      readText inside = .ok (text, rest) := by
  refine ⟨encode (text.toList.flatMap escapeChar) ++ quoteMark :: rest, ?_, ?_⟩
  · have quote : encode ['"'] = [quoteMark] := by decide
    rw [writeText, List.cons_append, Text.Utf8.encode_cons, encode_append, quote]
    simp
    rfl
  · have whole : Text.Utf8.text? (encode text.toList) = some text := by
      rw [Text.Utf8.text?, Text.Utf8.decode_encode]
      simp
    simp only [readText, unescape_written, List.reverse_nil, List.nil_append, whole, bind,
      Except.bind, pure, Except.pure]

end Strings

end DeadDrop.Json
