import DeadDrop.Proofs.Packet.Truncation

/-!
Packets that are written whole, one behind the other. They are read back as they were written, so
different packets never come out alike. What lacks some of the octets at the end is the message of
fewer packets if it stops between two of them, and no message if it stops anywhere else. Of the
forms that a length has, the writer takes the shortest that can hold it.
-/

namespace DeadDrop.Packet

/-- Has a form with a definite length: the tag fits the header, the length four octets. -/
structure Writable (packet : Packet) : Prop where
  tag : packet.tag < 64
  body : packet.body.length < 2 ^ 32

namespace Writable

variable {packet : Packet}

theorem delimited (writable : Writable packet) : Delimited packet packet.write := by
  have four : 2 ^ 32 = 256 ^ 4 := by decide
  exact delimited_write writable.tag (four ▸ writable.body)

end Writable

section Lengths

variable {length : Nat} {lead : Bytes}

theorem length_definiteLength_le_of_form (form : DefiniteLength length lead) :
    (definiteLength length).length ≤ lead.length := by
  rw [length_definiteLength]
  cases form with
  | one small =>
      rw [if_pos small]
      exact Nat.le_refl 1
  | two large small =>
      rw [if_neg (Nat.not_lt.mpr large), if_pos small]
      exact Nat.le_refl 2
  | five _ =>
      rw [List.length_cons, Bytes.length_ofNat]
      split
      · decide
      · split <;> decide

end Lengths

section Rows

variable {packets : List Packet} {part : Bytes}

def parts (packets : List Packet) : List (Bytes × Packet) :=
  packets.map fun packet => (packet.write, packet)

theorem flatMap_parts (packets : List Packet) :
    (parts packets).flatMap Prod.fst = packets.flatMap write := by
  rw [parts, List.flatMap_map]

theorem map_parts (packets : List Packet) : (parts packets).map Prod.snd = packets := by
  rw [parts, List.map_map]
  exact List.map_id packets

theorem take_parts (packets : List Packet) (count : Nat) :
    (parts packets).take count = parts (packets.take count) := by
  rw [parts, parts, List.map_take]

theorem delimited_parts (writable : ∀ packet ∈ packets, Writable packet) :
    ∀ part ∈ parts packets, Delimited part.2 part.1 := by
  intro part member
  obtain ⟨packet, inside, rfl⟩ := List.mem_map.mp member
  exact (writable packet inside).delimited

theorem readAll_row (writable : ∀ packet ∈ packets, Writable packet) :
    readAll (packets.flatMap write) = .ok packets := by
  have read : readAll ((parts packets).flatMap Prod.fst) = .ok ((parts packets).map Prod.snd) :=
    readAll_of_encodes fun part member =>
      encodes_of_delimited (delimited_parts writable part member)
  rw [flatMap_parts, map_parts] at read
  exact read

theorem readAll_row_part (writable : ∀ packet ∈ packets, Writable packet)
    (cut : part <+: packets.flatMap write) (short : part ≠ packets.flatMap write) :
    (∃ count < packets.length, part = (packets.take count).flatMap write ∧
        readAll part = .ok (packets.take count)) ∨
      (∀ count, part ≠ (packets.take count).flatMap write) ∧
        ∃ defect, readAll part = .error (.malformed defect) := by
  rw [← flatMap_parts] at cut short
  rcases readAll_part (delimited_parts writable) cut short with
    ⟨count, before, shape, read⟩ | ⟨defect, failed⟩
  · left
    rw [take_parts, flatMap_parts] at shape
    rw [take_parts, map_parts] at read
    rw [parts, List.length_map] at before
    exact ⟨count, before, shape, read⟩
  · right
    refine ⟨?_, defect, failed⟩
    rintro count rfl
    have front : ∀ packet ∈ packets.take count, Writable packet := fun packet member =>
      writable packet (List.mem_of_mem_take member)
    exact absurd ((readAll_row front).symm.trans failed) nofun

end Rows

/-- A row of packets is read as these packets. A part of it that ends between two of them is read
as the ones before; a part that ends inside one is malformed. Each length stands in the shortest of
its forms, and no other row has the same octets. -/
theorem definite_rows_are_framed (packets : List Packet)
    (writable : ∀ packet ∈ packets, Writable packet) :
    readAll (packets.flatMap write) = .ok packets ∧
      (∀ part, part <+: packets.flatMap write → part ≠ packets.flatMap write →
        (∃ count < packets.length, part = (packets.take count).flatMap write ∧
            readAll part = .ok (packets.take count)) ∨
          (∀ count, part ≠ (packets.take count).flatMap write) ∧
            ∃ defect, readAll part = .error (.malformed defect)) ∧
      (∀ length < 2 ^ 32, DefiniteLength length (definiteLength length) ∧
        ∀ lead, DefiniteLength length lead → (definiteLength length).length ≤ lead.length) ∧
      ∀ others : List Packet, (∀ packet ∈ others, Writable packet) →
        others.flatMap write = packets.flatMap write → others = packets := by
  have read := readAll_row writable
  refine ⟨read, ?_, ?_, ?_⟩
  · intro part cut short
    exact readAll_row_part writable cut short
  · intro length fits
    constructor
    · exact definite_definiteLength fits
    · intro lead form
      exact length_definiteLength_le_of_form form
  · intro others fit same
    have again := readAll_row fit
    rw [same, read] at again
    exact (Except.ok.inj again).symm

/-- Bodies on both sides of where one form of a length gives way to the next. -/
def edgeRow : List Packet :=
  [191, 192, 8383, 8384].map fun size => ⟨Tag.literal, List.replicate size 7⟩

theorem edge_row_is_framed :
    (∀ packet ∈ edgeRow, Writable packet) ∧ readAll (edgeRow.flatMap write) = .ok edgeRow := by
  have writable : ∀ packet ∈ edgeRow, Writable packet := by
    intro packet member
    obtain ⟨size, inside, rfl⟩ := List.mem_map.mp member
    have most : ∀ size ∈ [191, 192, 8383, 8384], size < 2 ^ 32 := by decide
    constructor
    · exact (by decide : Tag.literal < 64)
    · rw [List.length_replicate]
      exact most size inside
  exact ⟨writable, (definite_rows_are_framed edgeRow writable).1⟩

end DeadDrop.Packet
