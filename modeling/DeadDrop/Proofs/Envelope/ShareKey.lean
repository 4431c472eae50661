import DeadDrop.Envelope.ShareKey
import DeadDrop.Proofs.Armor.Base64
import DeadDrop.Proofs.Exchange.Keys

/-!
Keys by chance. The 22 characters of a key are the first digits of a longer text. They all stand
in front of its last group, which is the only one that is padded, so a key is six times 22 bits of
what it was drawn from, no more and no less, and every text of such digits is the key of something.
-/

namespace DeadDrop

open Armor (Base64.Alphabet)
open Armor.Base64 (digits sextets)

namespace Envelope.ShareKey

section Digits

/-- Bits of the random octets that a key keeps. -/
def keptBits : Nat := 6 * length

theorem exists_digits (random : Sized length) :
    ∃ values, (ofRandom random).toList = digits .urlSafe values ∧ values.length = length ∧
      sextets values = random.val.bits.take keptBits := by
  have whole : 3 * 7 ≤ random.val.length := by
    rw [random.property]
    decide
  obtain ⟨values, written, size, spelled⟩ :=
    Armor.Base64.exists_sextets_take .urlSafe whole (show length ≤ 4 * 7 by decide)
  refine ⟨values, ?_, size, spelled⟩
  rw [ofRandom, String.toList_ofList, written]

theorem ofRandom_eq_iff (left right : Sized length) :
    ofRandom left = ofRandom right ↔
      left.val.bits.take keptBits = right.val.bits.take keptBits := by
  obtain ⟨values, written, -, spelled⟩ := exists_digits left
  obtain ⟨others, writtenOther, -, spelledOther⟩ := exists_digits right
  rw [← String.toList_inj, written, writtenOther, ← spelled, ← spelledOther,
    (Armor.Base64.digits_injective Armor.Base64.urlSafe_sound).eq_iff,
    Armor.Base64.sextets_injective.eq_iff]

end Digits

section Range

def UrlSafe (c : Char) : Prop := c.isAlphanum = true ∨ c = '-' ∨ c = '_'

instance (c : Char) : Decidable (UrlSafe c) :=
  inferInstanceAs (Decidable (c.isAlphanum = true ∨ c = '-' ∨ c = '_'))

theorem urlSafe_digit : ∀ value : Fin 64, UrlSafe (Base64.Alphabet.urlSafe.digit value) := by
  decide +kernel

theorem ascii_of_urlSafe {c : Char} (safe : UrlSafe c) : c.toNat < 128 := by
  have within {last : UInt32} (small : last.toNat < 128) (most : c.val ≤ last) : c.toNat < 128 :=
    Nat.lt_of_le_of_lt (UInt32.le_iff_toNat_le.mp most) small
  rcases safe with alphanumeric | rfl | rfl
  · rcases Bool.or_eq_true_iff.mp alphanumeric with letter | digit
    · rcases Bool.or_eq_true_iff.mp letter with upper | lower
      · exact within (by decide) (of_decide_eq_true upper).2
      · exact within (by decide) (of_decide_eq_true (Bool.and_eq_true_iff.mp lower).2)
    · exact within (by decide) (of_decide_eq_true (Bool.and_eq_true_iff.mp digit).2)
  · decide
  · decide

theorem exists_digit {c : Char} (safe : UrlSafe c) :
    ∃ value : Fin 64, Base64.Alphabet.urlSafe.digit value = c := by
  have checked : ∀ code < 128, UrlSafe (Char.ofNat code) →
      ∃ value : Fin 64, Base64.Alphabet.urlSafe.digit value = Char.ofNat code := by
    decide +kernel
  have found := checked c.toNat (ascii_of_urlSafe safe)
  rw [Char.ofNat_toNat] at found
  exact found safe

theorem exists_values {chars : List Char} (safe : ∀ c ∈ chars, UrlSafe c) :
    ∃ values, digits .urlSafe values = chars := by
  induction chars with
  | nil => exact ⟨[], rfl⟩
  | cons c rest ih =>
      obtain ⟨here, later⟩ := List.forall_mem_cons.mp safe
      obtain ⟨value, first⟩ := exists_digit here
      obtain ⟨values, others⟩ := ih later
      exact ⟨value :: values, by rw [← first, ← others]; rfl⟩

theorem exists_ofRandom {key : String} (size : key.length = length)
    (safe : ∀ c ∈ key.toList, UrlSafe c) : ∃ random, ofRandom random = key := by
  obtain ⟨values, written⟩ := exists_values safe
  have count : values.length = length := by
    rw [← size, ← String.length_toList, ← written, digits, List.length_map]
  -- Any bits will do for the ones that no key shows.
  have kept : (sextets values).length = keptBits := by
    rw [Armor.Base64.length_sextets, count]
    rfl
  have filled : (sextets values ++ List.replicate 44 false).length = 8 * length := by
    rw [List.length_append, kept, List.length_replicate]
    rfl
  obtain ⟨bytes, whole, bits⟩ := Bytes.exists_bits length filled
  refine ⟨⟨bytes, whole⟩, ?_⟩
  obtain ⟨others, writtenOther, -, spelled⟩ := exists_digits ⟨bytes, whole⟩
  have same : sextets others = sextets values := by
    rw [spelled, bits, ← kept, List.take_left]
  rw [← String.toList_inj, writtenOther, ← written, Armor.Base64.sextets_injective same]

theorem exists_ofRandom_iff (key : String) :
    (∃ random, ofRandom random = key) ↔ key.length = length ∧ ∀ c ∈ key.toList, UrlSafe c := by
  constructor
  · rintro ⟨random, rfl⟩
    obtain ⟨values, written, count, -⟩ := exists_digits random
    rw [← String.length_toList, written, digits, List.length_map]
    refine ⟨count, fun c member => ?_⟩
    obtain ⟨value, -, rfl⟩ := List.mem_map.mp member
    exact urlSafe_digit value
  · rintro ⟨size, safe⟩
    exact exists_ofRandom size safe

end Range

section Links

theorem plain_ofRandom (random : Sized length) :
    ∀ c ∈ (ofRandom random).toList, Link.Plain c ∧ c ≠ '/' := by
  obtain ⟨values, written, -, -⟩ := exists_digits random
  intro c member
  rw [written] at member
  obtain ⟨value, -, rfl⟩ := List.mem_map.mp member
  exact Link.plain_urlSafe value value.isLt

theorem ofRandom_ne_empty (random : Sized length) : ofRandom random ≠ "" := by
  obtain ⟨values, written, size, -⟩ := exists_digits random
  intro blank
  have none : digits .urlSafe values = [] := written.symm.trans (congrArg String.toList blank)
  rw [List.map_eq_nil_iff.mp none] at size
  cases size

/-- Keys are all texts of 22 URL-safe characters and no others. Two are the same exactly if they
were drawn from the same first 132 bits. Any link that holds one and can be read gives it back, and
links to ids on web pages can be read. -/
theorem ofRandom_keeps_bits [Url.Names] :
    (∀ key : String, (∃ random, ofRandom random = key) ↔
      key.length = 22 ∧ ∀ c ∈ key.toList, UrlSafe c) ∧
    (∀ left right, ofRandom left = ofRandom right ↔
      left.val.bits.take 132 = right.val.bits.take 132) ∧
    ∀ random page id file,
      let written := Link.write page ⟨id, ofRandom random, ⟨file, false⟩⟩
      (∀ link, Link.parse written = .ok link → link.key = ofRandom random) ∧
      (Link.IsPage page → (∀ c ∈ id.toList, Link.Plain c ∧ c ≠ '/') →
        Link.parse written = .ok ⟨id, ofRandom random, ⟨file, false⟩⟩) := by
  refine ⟨exists_ofRandom_iff, ofRandom_eq_iff, ?_⟩
  intro random page id file
  constructor
  · intro link parsed
    exact Link.key_of_parse_write (ofRandom_ne_empty random) (plain_ofRandom random) parsed
  · intro whole idPlain
    exact (Link.parse_write_eq_iff whole idPlain _ file).mpr (plain_ofRandom random)

/-- A key of no entropy on the page of notes. -/
theorem blank_key_is_linked :
    let random : Sized length := ⟨List.replicate 22 0, rfl⟩
    let page := "https://drop.example:8443/notes/"
    let written := Link.write page ⟨Link.noteId, ofRandom random, ⟨true, false⟩⟩
    ofRandom random = "AAAAAAAAAAAAAAAAAAAAAA" ∧ Link.IsPage page ∧
      Link.parse written = .ok ⟨Link.noteId, "AAAAAAAAAAAAAAAAAAAAAA", ⟨true, false⟩⟩ := by
  have whole := Link.isPage_location Link.notesPage
  rw [show String.ofList Link.notesPage.write = "https://drop.example:8443/notes/" by
    decide +kernel] at whole
  have key : ofRandom ⟨List.replicate 22 0, rfl⟩ = "AAAAAAAAAAAAAAAAAAAAAA" := by decide +kernel
  obtain ⟨-, -, links⟩ := ofRandom_keeps_bits
  obtain ⟨-, read⟩ := links ⟨List.replicate 22 0, rfl⟩ "https://drop.example:8443/notes/"
    Link.noteId true
  have canonical : SecretId.isCanonical Link.noteId = true := by decide +kernel
  have parsed := read whole (Link.plain_of_canonical canonical)
  exact ⟨key, whole, parsed.trans (by rw [key])⟩

end Links

end Envelope.ShareKey

end DeadDrop
