import DeadDrop.Proofs.Packet.Truncation
import Mathlib.Algebra.Order.Floor.Div

/-!
A body that comes in chunks, as it goes out. The output depends on the body alone: a header, the
body cut into segments of one size, and a segment with a length of its own that carries the rest.
The rest is empty only if the body is, so the cut is the same wherever the chunks end, and between
two chunks no more than one segment waits. The packet is read back in front of anything, and what
follows it is read as if it stood alone.
-/

namespace DeadDrop.Packet

open Envelope (Error)

variable {tag : UInt8} {body bytes : Bytes} {packet : Packet}

section Cuts

variable {full : List Bytes} {tail : Bytes}

/-- Segments of one size and the rest, which is there unless the body is empty. -/
structure Cut (body : Bytes) (full : List Bytes) (tail : Bytes) : Prop where
  whole : full.flatten ++ tail = body
  size : ∀ segment ∈ full, segment.length = chunkSize
  short : tail.length ≤ chunkSize
  filled : body ≠ [] → tail ≠ []

namespace Cut

theorem nil (short : body.length ≤ chunkSize) : Cut body [] body where
  whole := rfl
  size := nofun
  short := short
  filled := id

theorem cons {front : Bytes} (size : front.length = chunkSize) (cut : Cut body full tail)
    (more : body ≠ []) : Cut (front ++ body) (front :: full) tail where
  whole := by rw [List.flatten_cons, List.append_assoc, cut.whole]
  size := by
    rintro segment (_ | ⟨_, member⟩)
    · exact size
    · exact cut.size segment member
  short := cut.short
  filled _ := cut.filled more

theorem length (cut : Cut body full tail) :
    body.length = full.length * chunkSize + tail.length := by
  have sizes : full.map List.length = List.replicate full.length chunkSize := by
    apply List.eq_replicate_iff.mpr
    constructor
    · exact List.length_map _
    · intro size member
      obtain ⟨segment, inside, rfl⟩ := List.mem_map.mp member
      exact cut.size segment inside
  calc body.length
      = (full.map List.length).sum + tail.length := by
        rw [← cut.whole, List.length_append, List.length_flatten]
    _ = full.length * chunkSize + tail.length := by
        rw [sizes, List.sum_replicate_nat]

theorem length_full (cut : Cut body full tail) : full.length = (body.length - 1) / chunkSize := by
  have total := cut.length
  have short := cut.short
  have unit : chunkSize = 8192 := rfl
  rw [unit] at total short ⊢
  by_cases empty : body = []
  · rw [empty, List.length_nil] at total ⊢
    omega
  · have some := List.length_pos_iff.mpr (cut.filled empty)
    omega

theorem count (cut : Cut body full tail) : full.length = body.length ⌈/⌉ chunkSize - 1 := by
  have unit : chunkSize = 8192 := rfl
  rw [cut.length_full, Nat.ceilDiv_eq_add_pred_div, unit]
  omega

theorem tail_eq (cut : Cut body full tail) :
    tail = body.drop ((body.length - 1) / chunkSize * chunkSize) := by
  have taken : full.flatten.length = (body.length - 1) / chunkSize * chunkSize := by
    have total := cut.length
    rw [← cut.whole, List.length_append] at total
    rw [← cut.length_full]
    omega
  rw [← taken]
  calc tail = (full.flatten ++ tail).drop full.flatten.length := List.drop_left.symm
    _ = body.drop full.flatten.length := by rw [cut.whole]

theorem append {more : List Bytes} {chunk rest : Bytes} (cut : Cut body full tail)
    (onward : Cut (tail ++ chunk) more rest) : Cut (body ++ chunk) (full ++ more) rest where
  whole := by
    rw [List.flatten_append, List.append_assoc, onward.whole, ← List.append_assoc, cut.whole]
  size := by
    intro segment member
    rcases List.mem_append.mp member with before | after
    · exact cut.size segment before
    · exact onward.size segment after
  short := onward.short
  filled := by
    intro some
    apply onward.filled
    intro none
    obtain ⟨left, rfl⟩ := List.append_eq_nil_iff.mp none
    rw [List.append_nil] at some
    exact cut.filled some left

end Cut

theorem exists_cut (body : Bytes) : ∃ full tail, Cut body full tail ∧
    segments body = full.flatMap (fun segment => chunkLength :: segment) ++
      (definiteLength tail.length ++ tail) := by
  induction body using segments.induct with
  | case1 body long ih =>
      obtain ⟨full, tail, cut, same⟩ := ih
      have size : (body.take chunkSize).length = chunkSize :=
        List.length_take_of_le (Nat.le_of_lt long)
      have more : body.drop chunkSize ≠ [] := by
        intro none
        exact Nat.not_le.mpr long (List.drop_eq_nil_iff.mp none)
      have longer := cut.cons size more
      rw [List.take_append_drop] at longer
      exact ⟨_, _, longer, by simp [segments_long long, same]⟩
  | case2 body short =>
      have fits := Nat.le_of_not_lt short
      exact ⟨[], body, .nil fits, segments_short fits⟩

/-- The writer's length octet says that a segment of this size is not the last. -/
theorem announced_chunk {segment : Bytes} (size : segment.length = chunkSize) :
    Announced ⟨segment, false⟩ [chunkLength] :=
  .power 13 (by decide) size

theorem announced_tail (short : tail.length ≤ chunkSize) :
    Announced ⟨tail, true⟩ (definiteLength tail.length) := by
  apply Announced.last
  apply definite_definiteLength
  exact Nat.lt_of_le_of_lt short (by decide)

end Cuts

section Waiting

/-- What the writer holds back once these chunks have been written. -/
def waiting (tag : UInt8) (chunks : List Bytes) : Bytes :=
  let writer := partialWriter tag
  let unsent : Unsent := (writer.feedAll writer.start [writer.opening] chunks).1
  unsent.octets

theorem waiting_concat (tag : UInt8) (chunks : List Bytes) (chunk : Bytes) :
    waiting tag (chunks ++ [chunk]) = (waiting tag chunks ++ chunk).drop
      (((waiting tag chunks ++ chunk).length - 1) / chunkSize * chunkSize) := by
  unfold waiting
  dsimp only
  rw [Transducer.feedAll_concat]
  exact sendChunks_octets _ _ _

/-- The writer holds back the rest of what it was given, as if it had been given it at once. -/
theorem cut_waiting (tag : UInt8) (chunks : List Bytes) :
    ∃ full, Cut chunks.flatten full (waiting tag chunks) := by
  induction chunks using List.reverseRecOn with
  | nil => exact ⟨[], .nil (Nat.zero_le _)⟩
  | append_singleton begun chunk ih =>
      obtain ⟨full, cut⟩ := ih
      obtain ⟨more, rest, onward, -⟩ := exists_cut (waiting tag begun ++ chunk)
      have held : waiting tag (begun ++ [chunk]) = rest := by
        rw [waiting_concat, ← onward.tail_eq]
      rw [held, List.flatten_append, List.flatten_singleton]
      exact ⟨full ++ more, cut.append onward⟩

end Waiting

section Followed

variable {cursor next : Cursor} {fuel other : Nat} {done : List Packet}

theorem length_of_readOne (read : readOne cursor = .ok (packet, next)) :
    next.rest.length < cursor.rest.length := by
  rcases delimited_of_readOne read with ⟨octets, delimited, shape⟩ | ⟨_, _, shape, _, ended⟩
  · have some := length_of_delimited delimited
    rw [shape, List.length_append]
    omega
  · rw [shape, ended]
    exact Nat.succ_pos _

theorem readMany_done (fuel : Nat) (done : List Packet) (cursor : Cursor) :
    readMany fuel done cursor = (readMany fuel [] cursor).map (done.reverse ++ ·) := by
  induction fuel generalizing done cursor with
  | zero => simp [readMany, Except.map]
  | succ fuel ih =>
      by_cases ended : cursor.rest = []
      · obtain ⟨rest⟩ := cursor
        obtain rfl : rest = [] := ended
        simp [readMany_nil, Except.map]
      · rw [readMany_filled ended, readMany_filled ended]
        cases readOne cursor with
        | error => rfl
        | ok read =>
            change readMany fuel (read.1 :: done) read.2 = (readMany fuel [read.1] read.2).map _
            rw [ih (read.1 :: done), ih [read.1]]
            cases readMany fuel [] read.2 <;> simp [Except.map]

-- The header of each packet leaves less to read, so any fuel that is enough gives the same.
theorem readMany_enough (enough : cursor.rest.length ≤ fuel)
    (enough' : cursor.rest.length ≤ other) :
    readMany fuel done cursor = readMany other done cursor := by
  induction fuel generalizing other done cursor with
  | zero =>
      obtain ⟨rest⟩ := cursor
      obtain rfl : rest = [] := List.eq_nil_of_length_eq_zero (Nat.le_zero.mp enough)
      rw [readMany_nil, readMany_nil]
  | succ fuel ih =>
      by_cases ended : cursor.rest = []
      · obtain ⟨rest⟩ := cursor
        obtain rfl : rest = [] := ended
        rw [readMany_nil, readMany_nil]
      · have some := List.length_pos_iff.mpr ended
        obtain ⟨other, rfl⟩ := Nat.exists_eq_succ_of_ne_zero (by omega : other ≠ 0)
        rw [readMany_filled ended, readMany_filled ended]
        cases read : readOne cursor with
        | error => rfl
        | ok pair =>
            have shorter := length_of_readOne read
            apply ih <;> omega

/-- A packet in front is read first, and then the rest as if it stood alone. -/
theorem readAll_append (encodes : Encodes bytes packet) (rest : Bytes) :
    readAll (bytes ++ rest) = (readAll rest).map (packet :: ·) := by
  obtain ⟨filled, reads⟩ := encodes
  have some : bytes ++ rest ≠ [] := fun none => filled (List.append_eq_nil_iff.mp none).1
  obtain ⟨fuel, size⟩ := Nat.exists_eq_succ_of_ne_zero (List.length_pos_iff.mpr some).ne'
  have enough : rest.length ≤ fuel := by
    have positive := List.length_pos_iff.mpr filled
    rw [List.length_append] at size
    omega
  calc readAll (bytes ++ rest)
      = readMany fuel [packet] ⟨rest⟩ := by
        rw [readAll, size, readMany_filled some, reads]
        rfl
    _ = (readMany fuel [] ⟨rest⟩).map (packet :: ·) := readMany_done fuel [packet] ⟨rest⟩
    _ = (readAll rest).map (packet :: ·) := by
        rw [readAll, readMany_enough enough (Nat.le_refl _)]

end Followed

/-- A body that is written in chunks goes out as a header, as many segments of one size as leave
something for the last, and the last with a length of its own. Only the body counts, never the
chunks; what waits after each of them is what would be the last segment if nothing more came, so no
more than one; and the packet is read back with this body, ahead of whatever the octets behind it
are read as. -/
theorem streamed_body_is_framed (tag : UInt8) (small : tag < 64) (chunks : List Bytes) :
    (∀ others : List Bytes, others.flatten = chunks.flatten →
        (partialWriter tag).run others = (partialWriter tag).run chunks) ∧
      (∃ full tail last, Cut chunks.flatten full tail ∧
        full.length = chunks.flatten.length ⌈/⌉ chunkSize - 1 ∧
        (∀ segment ∈ full, Announced ⟨segment, false⟩ [chunkLength]) ∧
        Announced ⟨tail, true⟩ last ∧
        (partialWriter tag).run chunks =
          (0xC0 ||| tag) ::
            (full.flatMap (fun segment => chunkLength :: segment) ++ (last ++ tail))) ∧
      (∀ begun, begun <+: chunks → (waiting tag begun).length ≤ chunkSize ∧
        ∃ full, Cut begun.flatten full (waiting tag begun)) ∧
      ∀ rest, readAll ((partialWriter tag).run chunks ++ rest) =
        (readAll rest).map (⟨tag, chunks.flatten⟩ :: ·) := by
  have written := partialWriter_computes tag
  refine ⟨?_, ?_, ?_, ?_⟩
  · intro others same
    rw [written, written, same]
  · obtain ⟨full, tail, cut, same⟩ := exists_cut chunks.flatten
    have sized : ∀ segment ∈ full, Announced ⟨segment, false⟩ [chunkLength] :=
      fun segment member => announced_chunk (cut.size segment member)
    exact ⟨full, tail, _, cut, cut.count, sized, announced_tail cut.short,
      (written chunks).trans (congrArg _ same)⟩
  · intro begun _
    obtain ⟨full, cut⟩ := cut_waiting tag begun
    exact ⟨cut.short, full, cut⟩
  · intro rest
    rw [written]
    exact readAll_append (encodes_segments small chunks.flatten) rest

/-- Two chunks of the size of a segment: one segment goes out, the other waits for the close. -/
theorem streamed_pair_is_framed :
    Tag.literal < 64 ∧
      ∀ rest, readAll ((partialWriter Tag.literal).run
          [List.replicate chunkSize 7, [], List.replicate chunkSize 7] ++ rest) =
        (readAll rest).map (⟨Tag.literal, List.replicate (2 * chunkSize) 7⟩ :: ·) := by
  have small : Tag.literal < 64 := by decide
  obtain ⟨-, -, -, followed⟩ := streamed_body_is_framed Tag.literal small
    [List.replicate chunkSize 7, [], List.replicate chunkSize 7]
  -- Of any size, so that nothing is computed with lists of this length.
  have body (size : Nat) : [List.replicate size 7, [], List.replicate size 7].flatten =
      List.replicate (2 * size) (7 : UInt8) := by
    simp [Nat.two_mul]
  rw [body chunkSize] at followed
  exact ⟨small, followed⟩

end DeadDrop.Packet
