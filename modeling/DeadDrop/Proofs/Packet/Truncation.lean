import DeadDrop.Proofs.Packet.Acceptance

/-!
Messages that break off. The end of a packet with a length can be told from its own octets, so no
part of it is read as a packet, and the part is malformed. A message of such packets that breaks
off between two of them is the message of the packets before; one that breaks off inside a packet
is none. What the writers write are packets with a length.
-/

namespace DeadDrop.Packet

open Envelope (Error)

variable {packet : Packet} {octets part : Bytes}

section One

theorem bits_of_delimited {first : UInt8} {rest : Bytes}
    (written : Delimited packet (first :: rest)) :
    first &&& 0x40 ≠ 0 ∨ first &&& 0x03 < 3 := by
  cases written with
  | new small segmented => exact .inl (header_bits _ small).2.1
  | old small counted =>
      have known := kind_of_counted counted
      rw [(oldHeader_bits small known).2.2.1]
      right
      cases counted <;> decide

theorem not_delimited_of_indeterminate {tag : UInt8} (small : tag < 16) (rest : Bytes) :
    ¬ Delimited packet (oldHeader tag 3 :: rest) := by
  intro written
  obtain ⟨-, old, kind, -⟩ := oldHeader_bits small (by decide : (3 : UInt8) < 4)
  rcases bits_of_delimited written with new | counted
  · exact new old
  · rw [kind] at counted
    exact absurd counted (by decide)

/-- No proper part of a packet is read, as this packet or as another. -/
theorem readOne_part (written : Delimited packet octets) (cut : part <+: octets)
    (short : part ≠ octets) : ∃ defect, readOne ⟨part⟩ = .error (.malformed defect) := by
  cases read : readOne ⟨part⟩ with
  | error error =>
      obtain ⟨defect, rfl⟩ := strict_readOne _ error read
      exact ⟨defect, rfl⟩
  | ok pair =>
      exfalso
      obtain ⟨other, next⟩ := pair
      obtain ⟨missing, rfl⟩ := cut
      rcases delimited_of_readOne read with ⟨taken, delimited, shape⟩ | ⟨tag, small, shape, -, -⟩
      · -- The packet that was read is read off the whole as well, and leaves what is missing.
        have whole := (encodes_of_delimited written).2 []
        have again := (encodes_of_delimited delimited).2 (next.rest ++ missing)
        rw [← List.append_assoc, ← shape] at again
        rw [List.append_nil, again] at whole
        have nothing : next.rest ++ missing = [] :=
          congrArg (fun read => read.2.rest) (Except.ok.inj whole)
        obtain ⟨-, rfl⟩ := List.append_eq_nil_iff.mp nothing
        exact short (List.append_nil part).symm
      · dsimp only at shape
        rw [shape, List.cons_append] at written
        exact not_delimited_of_indeterminate small _ written

end One

section Rows

variable {parts : List (Bytes × Packet)} {done : List Packet} {fuel : Nat}

theorem readMany_nil (fuel : Nat) (done : List Packet) :
    readMany fuel done ⟨[]⟩ = .ok done.reverse := by
  cases fuel <;> rfl

theorem readMany_filled (filled : octets ≠ []) :
    readMany (fuel + 1) done ⟨octets⟩ =
      readOne ⟨octets⟩ >>= fun read => readMany fuel (read.1 :: done) read.2 := by
  rw [readMany, Cursor.isEmpty, List.isEmpty_eq_false_iff.mpr filled]
  rfl

/-- A row that breaks off between two packets is read up to there, any other not at all. -/
theorem readMany_part (written : ∀ part ∈ parts, Delimited part.2 part.1)
    (cut : part <+: parts.flatMap Prod.fst) (short : part ≠ parts.flatMap Prod.fst)
    (enough : part.length ≤ fuel) :
    (∃ count < parts.length, part = (parts.take count).flatMap Prod.fst ∧
        readMany fuel done ⟨part⟩ = .ok (done.reverse ++ (parts.take count).map Prod.snd)) ∨
      ∃ defect, readMany fuel done ⟨part⟩ = .error (.malformed defect) := by
  induction parts generalizing part done fuel with
  | nil => exact absurd (List.prefix_nil.mp cut) short
  | cons first others ih =>
      obtain ⟨here, later⟩ := List.forall_mem_cons.mp written
      obtain ⟨filled, reads⟩ := encodes_of_delimited here
      rw [List.flatMap_cons] at cut short
      by_cases empty : part = []
      · subst empty
        left
        exact ⟨0, Nat.succ_pos _, rfl, by simp [readMany_nil]⟩
      · obtain ⟨fuel, rfl⟩ : ∃ less, fuel = less + 1 := by
          have positive := List.length_pos_iff.mpr empty
          exact Nat.exists_eq_succ_of_ne_zero (by omega)
        rw [readMany_filled empty]
        by_cases whole : first.1 <+: part
        · obtain ⟨rest, rfl⟩ := whole
          have cut' := (List.prefix_append_right_inj first.1).mp cut
          have short' : rest ≠ others.flatMap Prod.fst := fun same => short (same ▸ rfl)
          have enough' : rest.length ≤ fuel := by
            have positive := List.length_pos_iff.mpr filled
            rw [List.length_append] at enough
            omega
          rw [reads]
          have further := @ih rest (first.2 :: done) fuel later cut' short' enough'
          rcases further with ⟨count, before, rfl, read⟩ | malformed
          · left
            refine ⟨count + 1, Nat.succ_lt_succ before, ?_, ?_⟩
            · rw [List.take_succ_cons, List.flatMap_cons]
            · simp [bind, Except.bind, read]
          · exact .inr malformed
        · right
          have inside : part <+: first.1 :=
            (List.prefix_or_prefix_of_prefix cut (List.prefix_append _ _)).resolve_right whole
          have proper : part ≠ first.1 := fun same => whole (same ▸ List.prefix_refl part)
          obtain ⟨defect, failed⟩ := readOne_part here inside proper
          exact ⟨defect, by rw [failed]; rfl⟩

/-- A message that breaks off gives the packets before the break, if it is between two of them, or
is malformed. -/
theorem readAll_part (written : ∀ part ∈ parts, Delimited part.2 part.1)
    (cut : part <+: parts.flatMap Prod.fst) (short : part ≠ parts.flatMap Prod.fst) :
    (∃ count < parts.length, part = (parts.take count).flatMap Prod.fst ∧
        readAll part = .ok ((parts.take count).map Prod.snd)) ∨
      ∃ defect, readAll part = .error (.malformed defect) :=
  readMany_part written cut short (Nat.le_refl _)

end Rows

section Writers

variable {tag : UInt8} {body : Bytes}

theorem definite_definiteLength {length : Nat} (fits : length < 256 ^ 4) :
    DefiniteLength length (definiteLength length) := by
  unfold definiteLength
  by_cases one : length < 192
  · rw [if_pos one]
    exact .one one
  · by_cases two : length < 8384
    · rw [if_neg one, if_pos two]
      exact .two (Nat.le_of_not_lt one) two
    · rw [if_neg one, if_neg two]
      exact .five fits

theorem segmented_segments (body : Bytes) : Segmented body (segments body) := by
  induction body using segments.induct with
  | case1 body long ih =>
      have full : (body.take chunkSize).length = 2 ^ 13 := by
        rw [List.length_take_of_le (Nat.le_of_lt long)]
        rfl
      have bound : 13 ≤ largestPower := by decide
      have segment := Segmented.segment 13 bound full ih
      rw [List.take_append_drop] at segment
      rw [segments_long long]
      exact segment
  | case2 body short =>
      have small : body.length < 256 ^ 4 := by
        have chunk : chunkSize = 8192 := rfl
        omega
      rw [segments_short (Nat.le_of_not_lt short)]
      exact .last (definite_definiteLength small)

theorem delimited_segments (small : tag < 64) (body : Bytes) :
    Delimited ⟨tag, body⟩ ((0xC0 ||| tag) :: segments body) :=
  .new small (segmented_segments body)

theorem delimited_write (small : packet.tag < 64) (fits : packet.body.length < 256 ^ 4) :
    Delimited packet packet.write :=
  .new small (.last (definite_definiteLength fits))

end Writers

end DeadDrop.Packet
