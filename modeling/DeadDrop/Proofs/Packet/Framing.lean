import DeadDrop.Packet.Frame
import DeadDrop.Proofs.Transducer
import Mathlib.Algebra.Group.Nat.Defs

/-!
What is written as a packet is read as that packet, whatever follows it. A body with a definite
length is read back up to 2^32 octets. A body of unknown length goes out in segments; the writer's
segments depend on the body alone and not on the chunks it came in, and they are read back at any
length.
-/

namespace DeadDrop

namespace Bytes

theorem toNat_append (left right : Bytes) :
    toNat (left ++ right) = toNat left * 256 ^ right.length + toNat right := by
  -- The digits on the right are added to what was read before them, whatever that is.
  have carried (bytes : Bytes) (start : Nat) :
      bytes.foldl (fun value octet => value * 256 + octet.toNat) start =
        start * 256 ^ bytes.length + toNat bytes := by
    induction bytes generalizing start with
    | nil => simp [toNat]
    | cons octet rest ih =>
        have tail := ih (0 * 256 + octet.toNat)
        rw [List.foldl_cons, ih, List.length_cons, Nat.pow_succ', toNat, toNat, List.foldl_cons,
          tail]
        rw [Nat.add_mul, Nat.add_mul, Nat.mul_assoc, toNat]
        omega
  rw [toNat, List.foldl_append, carried]
  rfl

theorem toNat_ofNat {width value : Nat} (fits : value < 256 ^ width) :
    toNat (ofNat width value) = value := by
  induction width generalizing value with
  | zero =>
      have zero : value = 0 := by simpa using fits
      simp [ofNat, toNat, zero]
  | succ width ih =>
      have high : value / 256 < 256 ^ width := by
        rw [Nat.pow_succ] at fits
        exact Nat.div_lt_of_lt_mul (by omega)
      have digit : (UInt8.ofNat (value % 256)).toNat = value % 256 := by
        simp
      rw [ofNat, toNat_append, ih high]
      simp only [toNat, List.foldl_cons, List.foldl_nil, digit, List.length_singleton]
      omega

end Bytes

namespace Packet

open Envelope (Error)

namespace Cursor

@[simp] theorem octet_cons (first : UInt8) (rest : Bytes) :
    octet ⟨first :: rest⟩ = .ok (first, ⟨rest⟩) := rfl

theorem take_append {front : Bytes} (rest : Bytes) {count : Nat} (size : front.length = count) :
    take ⟨front ++ rest⟩ count = .ok (front, ⟨rest⟩) := by
  subst size
  simp [take]

theorem number_append (rest : Bytes) {width value : Nat} (fits : value < 256 ^ width) :
    number ⟨Bytes.ofNat width value ++ rest⟩ width = .ok (value, ⟨rest⟩) := by
  rw [number, take_append rest (Bytes.length_ofNat width value)]
  simp [Except.map, Bytes.toNat_ofNat fits]

end Cursor

section Segments

variable {first second : UInt8} {body : Bytes} (rest : Bytes)

theorem readSegment_one (small : first < 192) (size : body.length = first.toNat) :
    readSegment ⟨first :: (body ++ rest)⟩ = .ok (⟨body, true⟩, ⟨rest⟩) := by
  simp [readSegment, small, Cursor.take_append rest size, bind, Except.bind, pure, Except.pure]

theorem readSegment_two (large : ¬ first < 192) (small : first < 224)
    (size : body.length = (first.toNat - 192) * 256 + second.toNat + 192) :
    readSegment ⟨first :: second :: (body ++ rest)⟩ = .ok (⟨body, true⟩, ⟨rest⟩) := by
  simp [readSegment, large, small, Cursor.take_append rest size, bind, Except.bind, pure,
    Except.pure]

theorem readSegment_five (fits : body.length < 256 ^ 4) :
    readSegment ⟨255 :: (Bytes.ofNat 4 body.length ++ (body ++ rest))⟩ =
      .ok (⟨body, true⟩, ⟨rest⟩) := by
  have number := Cursor.number_append (body ++ rest) fits
  simp [readSegment, number, Cursor.take_append rest rfl, bind, Except.bind, pure, Except.pure]

theorem readSegment_partial (large : ¬ first < 224) (other : first ≠ 255)
    (size : body.length = 1 <<< (first.toNat % 32)) :
    readSegment ⟨first :: (body ++ rest)⟩ = .ok (⟨body, false⟩, ⟨rest⟩) := by
  have larger : ¬ first < 192 := fun small => large (UInt8.lt_trans small (by decide))
  simp [readSegment, large, larger, other, Cursor.take_append rest size, bind, Except.bind, pure,
    Except.pure]

theorem length_definiteLength (length : Nat) : (definiteLength length).length =
    if length < 192 then 1 else if length < 8384 then 2 else 5 := by
  unfold definiteLength
  split
  · rfl
  · split
    · rfl
    · rw [List.length_cons, Bytes.length_ofNat]

theorem readSegment_definite (fits : body.length < 256 ^ 4) :
    readSegment ⟨definiteLength body.length ++ (body ++ rest)⟩ = .ok (⟨body, true⟩, ⟨rest⟩) := by
  have octet (value : Nat) (small : value < 256) : (UInt8.ofNat value).toNat = value := by
    rw [UInt8.toNat_ofNat']
    omega
  unfold definiteLength
  by_cases one : body.length < 192
  · have size := octet body.length (by omega)
    rw [if_pos one]
    refine readSegment_one rest ?_ size.symm
    rw [UInt8.lt_iff_toNat_lt, size]
    exact one
  · by_cases two : body.length < 8384
    · have high := octet ((body.length - 192) / 256 + 192) (by omega)
      have low := octet ((body.length - 192) % 256) (by omega)
      rw [if_neg one, if_pos two]
      refine readSegment_two rest ?_ ?_ ?_
      · rw [UInt8.lt_iff_toNat_lt, high]
        exact Nat.not_lt.mpr (Nat.le_add_left 192 _)
      · rw [UInt8.lt_iff_toNat_lt, high]
        have small : (body.length - 192) / 256 + 192 < 224 := by omega
        exact small
      · rw [high, low]
        omega
    · rw [if_neg one, if_neg two]
      exact readSegment_five rest fits

theorem readSegment_chunk (full : body.length = chunkSize) :
    readSegment ⟨chunkLength :: (body ++ rest)⟩ = .ok (⟨body, false⟩, ⟨rest⟩) :=
  readSegment_partial rest (by decide) (by decide) full

theorem chunkSize_pos : 0 < chunkSize := by decide

def segments (body : Bytes) : Bytes :=
  if chunkSize < body.length then
    chunkLength :: (body.take chunkSize ++ segments (body.drop chunkSize))
  else definiteLength body.length ++ body
termination_by body.length
decreasing_by
  have positive := chunkSize_pos
  simp only [List.length_drop]
  omega

theorem segments_long (long : chunkSize < body.length) :
    segments body = chunkLength :: (body.take chunkSize ++ segments (body.drop chunkSize)) := by
  rw [segments, if_pos long]

theorem segments_short (short : body.length ≤ chunkSize) :
    segments body = definiteLength body.length ++ body := by
  rw [segments, if_neg (Nat.not_lt.mpr short)]

theorem length_le_segments (body : Bytes) : body.length ≤ (segments body).length := by
  induction body using segments.induct with
  | case1 body long ih =>
      rw [segments_long long]
      simp only [List.length_cons, List.length_append, List.length_take, List.length_drop] at ih ⊢
      omega
  | case2 body short =>
      rw [segments_short (Nat.not_lt.mp short)]
      simp

-- Every segment of the writer shortens the body, so its length bounds their number.
theorem readSegments_segments (pieces : List Bytes) {fuel : Nat} (enough : body.length < fuel) :
    readSegments fuel pieces ⟨segments body ++ rest⟩ =
      .ok (pieces.reverse.flatten ++ body, ⟨rest⟩) := by
  induction body using segments.induct generalizing pieces fuel with
  | case1 body long ih =>
      obtain ⟨fuel, rfl⟩ := Nat.exists_eq_succ_of_ne_zero (Nat.ne_zero_of_lt enough)
      have full : (body.take chunkSize).length = chunkSize := by
        rw [List.length_take]
        omega
      have fewer : (body.drop chunkSize).length < fuel := by
        have positive := chunkSize_pos
        rw [List.length_drop]
        omega
      have segment := readSegment_chunk (segments (body.drop chunkSize) ++ rest) full
      rw [segments_long long, List.cons_append, List.append_assoc]
      simp [readSegments, segment, ih (body.take chunkSize :: pieces) fewer, bind, Except.bind]
  | case2 body short =>
      obtain ⟨fuel, rfl⟩ := Nat.exists_eq_succ_of_ne_zero (Nat.ne_zero_of_lt enough)
      have small : body.length < 256 ^ 4 := by
        have : chunkSize = 8192 := rfl
        omega
      rw [segments_short (Nat.not_lt.mp short), List.append_assoc]
      simp [readSegments, readSegment_definite rest small, bind, Except.bind, pure, Except.pure]

theorem readNewBody_segments (body : Bytes) :
    readNewBody ⟨segments body ++ rest⟩ = .ok (body, ⟨rest⟩) := by
  have bound := length_le_segments body
  rw [readNewBody, readSegments_segments]
  · simp
  · simp only [List.length_append]
    omega

theorem readNewBody_definite (fits : body.length < 256 ^ 4) :
    readNewBody ⟨definiteLength body.length ++ (body ++ rest)⟩ = .ok (body, ⟨rest⟩) := by
  simp [readNewBody, readSegments, readSegment_definite rest fits, bind, Except.bind, pure,
    Except.pure]

end Segments

section Packets

variable {packet : Packet} {body bytes : Bytes} {tag : UInt8}

/-- The octets are read as the packet and nothing after them is touched. -/
def Encodes (bytes : Bytes) (packet : Packet) : Prop :=
  bytes ≠ [] ∧ ∀ rest, readOne ⟨bytes ++ rest⟩ = .ok (packet, ⟨rest⟩)

-- The bits of the 256 octets are looked at one by one.
theorem header_bits (tag : UInt8) (small : tag < 64) :
    (0xC0 ||| tag) &&& 0x80 ≠ 0 ∧ (0xC0 ||| tag) &&& 0x40 ≠ 0 ∧ (0xC0 ||| tag) &&& 0x3F = tag := by
  have all : ∀ number : Fin 256, UInt8.ofFin number < 64 →
      (0xC0 ||| UInt8.ofFin number) &&& 0x80 ≠ 0 ∧ (0xC0 ||| UInt8.ofFin number) &&& 0x40 ≠ 0 ∧
        (0xC0 ||| UInt8.ofFin number) &&& 0x3F = UInt8.ofFin number := by
    decide +kernel
  exact all tag.toFin small

theorem encodes_of_readNewBody (small : tag < 64)
    (read : ∀ rest, readNewBody ⟨bytes ++ rest⟩ = .ok (body, ⟨rest⟩)) :
    Encodes ((0xC0 ||| tag) :: bytes) ⟨tag, body⟩ := by
  obtain ⟨marked, new, same⟩ := header_bits tag small
  refine ⟨List.cons_ne_nil _ _, ?_⟩
  intro rest
  simp [readOne, marked, new, same, read rest, bind, Except.bind, pure, Except.pure]

theorem encodes_write (small : packet.tag < 64) (fits : packet.body.length < 256 ^ 4) :
    Encodes packet.write packet := by
  have shape : packet.write =
      (0xC0 ||| packet.tag) :: (definiteLength packet.body.length ++ packet.body) := rfl
  rw [shape]
  refine encodes_of_readNewBody small ?_
  intro rest
  rw [List.append_assoc]
  exact readNewBody_definite rest fits

theorem encodes_segments (small : tag < 64) (body : Bytes) :
    Encodes ((0xC0 ||| tag) :: segments body) ⟨tag, body⟩ :=
  encodes_of_readNewBody small fun rest => readNewBody_segments rest body

theorem readMany_of_encodes {parts : List (Bytes × Packet)} {fuel : Nat} (done : List Packet)
    (written : ∀ part ∈ parts, Encodes part.1 part.2) (enough : parts.length ≤ fuel) :
    readMany fuel done ⟨parts.flatMap Prod.fst⟩ = .ok (done.reverse ++ parts.map Prod.snd) := by
  induction parts generalizing fuel done with
  | nil => cases fuel <;> simp [readMany, Cursor.isEmpty]
  | cons part rest ih =>
      obtain ⟨fuel, rfl⟩ := Nat.exists_eq_succ_of_ne_zero (Nat.ne_zero_of_lt enough)
      obtain ⟨filled, reads⟩ := written part List.mem_cons_self
      have later := ih (part.2 :: done)
        (fun other member => written other (List.mem_cons_of_mem _ member))
        (Nat.le_of_succ_le_succ enough)
      have some : ((part :: rest).flatMap Prod.fst).isEmpty = false := by
        simp [filled]
      simp only [readMany, Cursor.isEmpty, some, Bool.false_eq_true, if_false]
      rw [List.flatMap_cons, reads]
      simp [bind, Except.bind, later]

/-- A message of packets is read as these packets. -/
theorem readAll_of_encodes {parts : List (Bytes × Packet)}
    (written : ∀ part ∈ parts, Encodes part.1 part.2) :
    readAll (parts.flatMap Prod.fst) = .ok (parts.map Prod.snd) := by
  have enough : parts.length ≤ (parts.flatMap Prod.fst).length := by
    induction parts with
    | nil => simp
    | cons part rest ih =>
        have filled := List.length_pos_iff.mpr (written part List.mem_cons_self).1
        have later := ih fun other member => written other (List.mem_cons_of_mem _ member)
        simp only [List.flatMap_cons, List.length_append, List.length_cons]
        omega
  exact readMany_of_encodes [] written enough

theorem readAll_single (encodes : Encodes bytes packet) : readAll bytes = .ok [packet] := by
  have read : readAll ([(bytes, packet)].flatMap Prod.fst) = .ok [packet] := by
    apply readAll_of_encodes
    intro part member
    rw [List.mem_singleton.mp member]
    exact encodes
  simpa using read

theorem readAll_pair {others : Bytes} {other : Packet} (first : Encodes bytes packet)
    (second : Encodes others other) : readAll (bytes ++ others) = .ok [packet, other] := by
  have read : readAll ([(bytes, packet), (others, other)].flatMap Prod.fst) =
      .ok [packet, other] := by
    apply readAll_of_encodes
    intro part member
    rcases List.mem_cons.mp member with rfl | member
    · exact first
    · rw [List.mem_singleton.mp member]
      exact second
  simpa using read

end Packets

section Writer

variable {tag : UInt8}

/-- What a state of the writer has still to send, for each rest of the body. -/
def unsentAhead (tag : UInt8) (unsent : Unsent) (rest : Bytes) : Bytes :=
  header tag unsent ++ segments (unsent.octets ++ rest)

theorem sendChunks_octets (count : Nat) (pieces : List Bytes) (unsent : Unsent) :
    (sendChunks tag count pieces unsent).2.octets = unsent.octets.drop (count * chunkSize) := by
  induction count generalizing pieces unsent with
  | zero => simp [sendChunks]
  | succ count ih => rw [sendChunks, ih, List.drop_drop, Nat.succ_mul, Nat.add_comm]

-- A chunk goes out only if more is waiting, so the writer cuts where the segments are cut.
theorem sendChunks_ahead {count : Nat} (pieces : List Bytes) {unsent : Unsent} (rest : Bytes)
    (enough : count = 0 ∨ count * chunkSize < unsent.octets.length) :
    (sendChunks tag count pieces unsent).1.reverse.flatten ++
        unsentAhead tag (sendChunks tag count pieces unsent).2 rest =
      pieces.reverse.flatten ++ unsentAhead tag unsent rest := by
  induction count generalizing pieces unsent with
  | zero => rfl
  | succ count ih =>
      have long : chunkSize < unsent.octets.length := by
        have positive := chunkSize_pos
        rw [Nat.succ_mul] at enough
        rcases enough with none | some
        · omega
        · exact Nat.lt_of_le_of_lt (Nat.le_add_left _ _) some
      have later : count = 0 ∨
          count * chunkSize < (unsent.octets.drop chunkSize).length := by
        rw [List.length_drop]
        rw [Nat.succ_mul] at enough
        omega
      have cut : segments (unsent.octets ++ rest) =
          chunkLength :: (unsent.octets.take chunkSize ++
            segments (unsent.octets.drop chunkSize ++ rest)) := by
        have longer : chunkSize < (unsent.octets ++ rest).length := by
          rw [List.length_append]
          omega
        have inside : chunkSize ≤ unsent.octets.length := Nat.le_of_lt long
        rw [segments_long longer, List.take_append_of_le_length inside,
          List.drop_append_of_le_length inside]
      rw [sendChunks, ih _ later]
      simp [unsentAhead, header, cut]

def send (tag : UInt8) (unsent : Unsent) (chunk : Bytes) : Unsent × Bytes :=
  let waiting := unsent.octets ++ chunk
  let sent := sendChunks tag ((waiting.length - 1) / chunkSize) [] ⟨waiting, unsent.headerSent⟩
  (sent.2, sent.1.reverse.flatten)

theorem send_short (tag : UInt8) (unsent : Unsent) (chunk : Bytes) :
    (send tag unsent chunk).1.octets.length ≤ chunkSize := by
  simp only [send, sendChunks_octets, List.length_drop, chunkSize]
  omega

theorem send_ahead (tag : UInt8) (unsent : Unsent) (chunk rest : Bytes) :
    unsentAhead tag unsent (chunk ++ rest) =
      (send tag unsent chunk).2 ++ unsentAhead tag (send tag unsent chunk).1 rest := by
  have moved : unsentAhead tag unsent (chunk ++ rest) =
      unsentAhead tag ⟨unsent.octets ++ chunk, unsent.headerSent⟩ rest := by
    simp only [unsentAhead, header, List.append_assoc]
  rw [moved]
  refine (sendChunks_ahead [] rest ?_).symm
  simp only [chunkSize]
  omega

theorem close_ahead (tag : UInt8) (unsent : Unsent) (short : unsent.octets.length ≤ chunkSize) :
    unsentAhead tag unsent [] =
      header tag unsent ++ definiteLength unsent.octets.length ++ unsent.octets := by
  rw [unsentAhead, List.append_nil, segments_short short, List.append_assoc]

/-- Whatever chunks a body comes in, it is written as its segments after one header. -/
theorem partialWriter_computes (tag : UInt8) :
    (partialWriter tag).Computes fun body => (0xC0 ||| tag) :: segments body :=
  (partialWriter tag).computes_of_ahead
    (fun (unsent : Unsent) => unsent.octets.length ≤ chunkSize) (unsentAhead tag)
    (Nat.zero_le _) (fun unsent chunk _ => send_short tag unsent chunk)
    (fun unsent chunk rest _ => send_ahead tag unsent chunk rest) (close_ahead tag)

end Writer

end Packet

end DeadDrop
