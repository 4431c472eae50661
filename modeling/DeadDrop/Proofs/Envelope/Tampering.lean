import DeadDrop.Proofs.Armor.Checksum
import DeadDrop.Proofs.Envelope.Truncation

/-!
Armor whose octets were changed under its checksum. Three octets hold the whole register, so another
register is another checksum line, and the reader, which reckons the checksum of the octets that it
finds, refuses them. A header may run over several lines; as long as none of them is blank the
reader either refuses the headers or comes to the octets behind them.
-/

namespace DeadDrop

namespace Armor

open Text.Blank (trimEnd lines splitOn lines_ended flatMap_splitOn_clean)

section ChecksumLine

variable {headers : List (String × String)} {octets : Bytes} {checksum : Checksum}

theorem toBytes_injective {left right : Checksum} (same : left.toBytes = right.toBytes) :
    left.value = right.value := by
  have width (checksum : Checksum) : checksum.value.toNat < 256 ^ 3 := by
    rw [Checksum.value, UInt32.toNat_and]
    exact Nat.lt_of_le_of_lt Nat.and_le_right (by decide)
  have values := congrArg Bytes.toNat same
  rw [Checksum.toBytes, Checksum.toBytes, Bytes.toNat_ofNat (width left),
    Bytes.toNat_ofNat (width right)] at values
  exact UInt32.toNat_inj.mp values

/-- Lines as they are written, but with any checksum. -/
def enclosed (headers : List (String × String)) (octets : Bytes) (checksum : Checksum) :
    List Line :=
  beginLine :: (headers.map headerText ++ [] ::
    ((cut octets).map (Base64.encode .standard) ++
      ['=' :: Base64.encode .standard checksum.toBytes, endLine]))

theorem write_eq (headers : List (String × String)) (chunks : List Bytes) :
    write headers chunks =
      unlines (enclosed headers chunks.flatten (.ofBytes chunks.flatten)) :=
  writer_computes headers chunks

/-- The lines of the headers as the reader finds them, cut at every line feed and trimmed. -/
def titles (headers : List (String × String)) : List Line :=
  ((headers.map headerText).flatMap (splitOn '\n')).map trimEnd

def Filled (headers : List (String × String)) : Prop := ∀ title ∈ titles headers, title ≠ []

theorem lines_enclosed (headers : List (String × String)) (octets : Bytes)
    (checksum : Checksum) :
    (lines (unlines (enclosed headers octets checksum))).map trimEnd =
      beginLine :: (titles headers ++ [] :: ((cut octets).map (Base64.encode .standard) ++
        ['=' :: Base64.encode .standard checksum.toBytes, endLine])) := by
  have tidy := tidy_behind_headers octets checksum
  have first : splitOn '\n' beginLine = [beginLine] := by decide
  have trimmed : trimEnd beginLine = beginLine := by decide
  -- Only the headers are cut further: what stands behind them has no line feed.
  rw [unlines, lines_ended, enclosed, List.flatMap_cons, first, List.flatMap_append,
    flatMap_splitOn_clean fun line member => (tidy line member).clean, List.map_append,
    List.map_append, List.map_congr_left fun line member => (tidy line member).whole,
    List.map_id', List.map_singleton, trimmed]
  rfl

theorem skipHeaders_filled {front rest : List Line} (filled : ∀ title ∈ front, title ≠ []) :
    skipHeaders (front ++ [] :: rest) = none ∨
      skipHeaders (front ++ [] :: rest) = some rest := by
  rw [skipHeaders_append filled]
  split
  · exact .inr rfl
  · exact .inl rfl

theorem agrees_eq_false (other : (Checksum.ofBytes octets).value ≠ checksum.value) :
    agrees octets (some (Base64.encode .standard checksum.toBytes)) = false := by
  rw [agrees, Base64.decode_encode Base64.standard_sound, decide_eq_false_iff_not,
    Option.some.injEq]
  exact fun same => other (toBytes_injective same.symm)

theorem decode_enclosed_other (filled : Filled headers)
    (other : (Checksum.ofBytes octets).value ≠ checksum.value) :
    decode? (unlines (enclosed headers octets checksum)) = none := by
  have body := readBody_groups [] (Base64.encode .standard checksum.toBytes)
    fun group (member : group ∈ cut octets) => ne_nil_of_mem_cut member
  rw [flatMap_encode_cut] at body
  rw [decode?, lines_enclosed]
  rcases skipHeaders_filled filled with refused | skipped
  · rw [decodeLines_skipping, refused]
    rfl
  · rw [decodeLines_begin skipped body, agrees_eq_false other]
    rfl

end ChecksumLine

end Armor

namespace Envelope

open Armor (Checksum Filled enclosed unlines)

/-- Octets that were changed in a short run have another check, so a message that is written with
no blank line in its headers is refused once its octets are others in such a run. Behind any octets
the register keeps its width, and only their order matters to it, not how they are cut. -/
theorem bursts_are_noticed :
    (∀ left right : Bytes, Checksum.Burst 24 left right →
      (Checksum.ofBytes left).value ≠ (Checksum.ofBytes right).value) ∧
    (∀ (headers : List (String × String)) (chunks : List Bytes) (altered : Bytes),
      Filled headers → Checksum.Burst 24 chunks.flatten altered →
      Armor.write headers chunks =
        unlines (enclosed headers chunks.flatten (.ofBytes chunks.flatten)) ∧
      Armor.decode? (unlines (enclosed headers altered (.ofBytes chunks.flatten))) = none ∧
      ∀ source : Source, source.contents =
        Text.Utf8.encode (unlines (enclosed headers altered (.ofBytes chunks.flatten))) →
        readMessage source = .error .invalidMessage) ∧
    (Checksum.Bounded Checksum.initial.register ∧ ∀ (checksum : Checksum) (bytes : Bytes),
      Checksum.Bounded checksum.register → Checksum.Bounded (checksum.update bytes).register) ∧
    ∀ (checksum : Checksum) (left right : Bytes),
      checksum.update (left ++ right) = (checksum.update left).update right := by
  refine ⟨fun _ _ => Checksum.value_ne_of_burst, ?_, ⟨by decide, ?_⟩, Checksum.update_append⟩
  · intro headers chunks altered filled burst
    have refused := Armor.decode_enclosed_other filled (Checksum.value_ne_of_burst burst).symm
    exact ⟨Armor.write_eq headers chunks, refused,
      fun _ text => readMessage_unarmored text refused⟩
  · intro checksum bytes bounded
    exact Checksum.bounded_update bounded bytes

theorem altered_note_is_noticed :
    Filled [armorComment] ∧ Checksum.Burst 24 [104, 105] [104, 104] ∧
      Armor.decode? (unlines (enclosed [armorComment] [104, 104] (.ofBytes [104, 105]))) =
        none := by
  have filled : Filled [armorComment] := by
    unfold Filled
    decide +kernel
  have burst : Checksum.Burst 24 [104, 105] [104, 104] := by
    have last : [105] ≠ ([104] : Bytes) := by decide
    exact Checksum.burst_between_octets [104] last rfl (by decide) []
  exact ⟨filled, burst, (bursts_are_noticed.2.1 [armorComment] [[104], [105]] [104, 104] filled
    burst).2.1⟩

/-- A header may hold a blank line and a message of its own, which ends before any checksum. -/
theorem burst_is_hidden_by_a_header :
    Checksum.Burst 24 [0] [1] ∧
      Armor.write [("x", "y\n\nAAAA\n-----END PGP MESSAGE-----")] [[0]] =
        unlines (enclosed [("x", "y\n\nAAAA\n-----END PGP MESSAGE-----")] [0] (.ofBytes [0])) ∧
      Armor.decode? (unlines (enclosed [("x", "y\n\nAAAA\n-----END PGP MESSAGE-----")] [1]
        (.ofBytes [0]))) = some [0, 0, 0] := by
  have octet : [0] ≠ ([1] : Bytes) := by decide
  refine ⟨Checksum.burst_between_octets [] octet rfl (by decide) [], Armor.write_eq _ _,
    by decide +kernel⟩

end Envelope

end DeadDrop
