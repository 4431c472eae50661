import DeadDrop.Proofs.Envelope.Sealing
import DeadDrop.Proofs.Text.Cut

/-!
The file name that comes out of an envelope. A name is cut to the octets that its length octet can
count, and what is left of it is read leniently. So a name that fits comes back, a longer one loses
its end, and a character that the cut goes through comes back as a replacement character that nobody
wrote.
-/

namespace DeadDrop.Envelope

open Text.Utf8 (CutTo CutsThrough replacement)

theorem Hints.cutTo_recovered (hints : Hints) :
    CutTo 255 hints.filename.toList hints.recovered.toList := by
  rw [recovered, Text.Utf8.textLossy, String.toList_ofList]
  exact Text.Utf8.cutTo_decodeLossy 255 hints.filename.toList

/-- Sealing a file succeeds, and its message opens with the content and the name that is recovered
from the cut octets, whatever name it was. -/
theorem exists_named (randomness : Randomness) (hints : Hints) {key : String}
    (reads : List Bytes) (filled : key ≠ "") :
    ∃ armored, encryptWith randomness (some hints) key ⟨reads, none⟩ = .ok armored ∧
      ∀ pieces : List Bytes, pieces.flatten = Text.Utf8.bytes armored →
        decrypt ⟨pieces, none⟩ key = some (.ok ⟨reads.flatten, some hints.recovered⟩) := by
  obtain ⟨octets, made, _, revealed⟩ := exists_revealed randomness (some hints) reads filled
  refine ⟨armoredText octets, made, ?_⟩
  intro pieces whole
  rw [decrypt, decryptWithin, revealed pieces whole]
  exact look_header _ _ (some hints) reads.flatten

/-- A file comes back under a name, and under its own if that fits. A name that is too long is cut
to 255 octets; it comes back as a front of what was written exactly if the cut goes through no
character other than the replacement character, which stands for any other one it goes through. -/
theorem name_is_front_iff_cut_through_none (randomness : Randomness) (hints : Hints)
    {key : String} (reads : List Bytes) (filled : key ≠ "") :
    ∃ armored name, encryptWith randomness (some hints) key ⟨reads, none⟩ = .ok armored ∧
      (∀ pieces : List Bytes, pieces.flatten = Text.Utf8.bytes armored →
        decrypt ⟨pieces, none⟩ key = some (.ok ⟨reads.flatten, some name⟩)) ∧
      CutTo 255 hints.filename.toList name.toList ∧
      (hints.Fits → name = hints.filename) ∧
      (name.toList <+: hints.filename.toList ↔
        ∀ c, CutsThrough 255 hints.filename.toList c → c = replacement) := by
  obtain ⟨armored, made, opens⟩ := exists_named randomness hints reads filled
  have cut := hints.cutTo_recovered
  exact ⟨armored, hints.recovered, made, opens, cut, Hints.recovered_of_fits, cut.prefix_iff⟩

/-- A name of three hundred letters loses its end and no more. -/
theorem long_name_loses_its_end :
    ∃ armored name, encryptWith ⟨Sized.filled 8 1, Sized.filled 32 2, Sized.filled 16 3⟩
        (some ⟨String.ofList (List.replicate 300 'a'), 0⟩) "key" ⟨[[104], [105]], none⟩ =
          .ok armored ∧
      decrypt (.ofBytes (Text.Utf8.bytes armored)) "key" =
        some (.ok ⟨[104, 105], some name⟩) ∧
      name.toList <+: List.replicate 300 'a' := by
  obtain ⟨armored, name, made, opens, _, _, front⟩ := name_is_front_iff_cut_through_none
    ⟨Sized.filled 8 1, Sized.filled 32 2, Sized.filled 16 3⟩
    ⟨String.ofList (List.replicate 300 'a'), 0⟩ [[104], [105]] (show "key" ≠ "" by decide)
  rw [String.toList_ofList] at front
  refine ⟨armored, name, made, opens [Text.Utf8.bytes armored] List.flatten_singleton, ?_⟩
  apply front.mpr
  -- A letter is one octet, so there is no cut inside it.
  rintro c ⟨before, rest, shape, below, above⟩
  have letter : c = 'a' := by
    apply List.eq_of_mem_replicate (n := 300)
    rw [shape]
    exact List.mem_append_right before List.mem_cons_self
  have size : (String.utf8EncodeChar 'a').length = 1 := by decide
  rw [letter, size] at above
  omega

def splitName : List Char := List.replicate 254 'a' ++ ['é']

/-- A character of two octets at the end of 254 others is cut in half, and comes back as one that
is not in the name. -/
theorem split_character_is_replaced :
    ∃ armored, encryptWith ⟨Sized.filled 8 1, Sized.filled 32 2, Sized.filled 16 3⟩
        (some ⟨String.ofList splitName, 0⟩) "key" ⟨[[104], [105]], none⟩ = .ok armored ∧
      decrypt (.ofBytes (Text.Utf8.bytes armored)) "key" =
        some (.ok ⟨[104, 105],
          some (String.ofList (List.replicate 254 'a' ++ [replacement]))⟩) ∧
      ¬ List.replicate 254 'a' ++ [replacement] <+: splitName := by
  obtain ⟨armored, made, opens⟩ := exists_named
    ⟨Sized.filled 8 1, Sized.filled 32 2, Sized.filled 16 3⟩
    ⟨String.ofList splitName, 0⟩ [[104], [105]] (show "key" ≠ "" by decide)
  have cut := Hints.cutTo_recovered ⟨String.ofList splitName, 0⟩
  have letters : (Text.Utf8.encode (List.replicate 254 'a')).length = 254 := by decide +kernel
  have size : (String.utf8EncodeChar 'é').length = 2 := by decide
  have read := cut.eq_of_through (String.toList_ofList (l := splitName)) (by omega) (by omega)
  refine ⟨armored, made, ?_, ?_⟩
  · rw [Source.ofBytes, opens _ List.flatten_singleton, ← read, String.ofList_toList]
    rfl
  · rw [splitName, List.prefix_append_right_inj]
    decide

end DeadDrop.Envelope
