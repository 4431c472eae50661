import DeadDrop.Proofs.Packet.Framing

/-!
The wire forms of packets, all of them. A definite length has three forms in the new format and
three in the old one, whichever is long enough; a new-format body may go out in segments of powers
of two before the one of definite length; an old-format packet of indeterminate length takes
everything that is left, so it is the last. A string of octets that the grammar derives for some
packets is read as these packets.
-/

namespace DeadDrop.Packet

open Envelope (Error)

inductive DefiniteLength : Nat → Bytes → Prop where
  | one {length : Nat} : length < 192 → DefiniteLength length [UInt8.ofNat length]
  | two {length : Nat} : 192 ≤ length → length < 8384 →
      DefiniteLength length
        [UInt8.ofNat ((length - 192) / 256 + 192), UInt8.ofNat ((length - 192) % 256)]
  | five {length : Nat} : length < 256 ^ 4 →
      DefiniteLength length (255 :: Bytes.ofNat 4 length)

def largestPower : Nat := 30

/-- A body in the new format, and its octets. -/
inductive Segmented : Bytes → Bytes → Prop where
  | last {body length : Bytes} : DefiniteLength body.length length →
      Segmented body (length ++ body)
  | segment {front body octets : Bytes} (power : Nat) : power ≤ largestPower →
      front.length = 2 ^ power → Segmented body octets →
      Segmented (front ++ body) (UInt8.ofNat (224 + power) :: (front ++ octets))

/-- A body in the old format with its length in front. The kind is what the header says of it. -/
inductive Counted : UInt8 → Bytes → Bytes → Prop where
  | one {body : Bytes} : body.length < 256 → Counted 0 body (UInt8.ofNat body.length :: body)
  | two {body : Bytes} : body.length < 256 ^ 2 → Counted 1 body (Bytes.ofNat 2 body.length ++ body)
  | four {body : Bytes} : body.length < 256 ^ 4 →
      Counted 2 body (Bytes.ofNat 4 body.length ++ body)

def oldHeader (tag kind : UInt8) : UInt8 := (0x80 : UInt8) ||| (tag <<< 2) ||| kind

/-- A packet whose end can be told from its own octets. -/
inductive Delimited : Packet → Bytes → Prop where
  | new {tag : UInt8} {body octets : Bytes} : tag < 64 → Segmented body octets →
      Delimited ⟨tag, body⟩ ((0xC0 ||| tag) :: octets)
  | old {tag kind : UInt8} {body octets : Bytes} : tag < 16 → Counted kind body octets →
      Delimited ⟨tag, body⟩ (oldHeader tag kind :: octets)

/-- Packets in a row. One of indeterminate length can only be the last. -/
inductive Written : List Packet → Bytes → Prop where
  | nil : Written [] []
  | cons {packet : Packet} {others : List Packet} {octets rest : Bytes} :
      Delimited packet octets → Written others rest →
      Written (packet :: others) (octets ++ rest)
  | indeterminate {tag : UInt8} {body : Bytes} : tag < 16 →
      Written [⟨tag, body⟩] (oldHeader tag 3 :: body)

section Bodies

variable {body octets length : Bytes} {kind : UInt8}

theorem toNat_octet (count : Nat) (small : count < 256) : (UInt8.ofNat count).toNat = count :=
  UInt8.toNat_ofNat_of_lt' small

theorem readSegment_of_definite (announces : DefiniteLength body.length length) (rest : Bytes) :
    readSegment ⟨length ++ (body ++ rest)⟩ = .ok (⟨body, true⟩, ⟨rest⟩) := by
  -- The number of octets is generalized, since every form speaks of it and of nothing else.
  generalize size : body.length = count at announces
  cases announces with
  | one small =>
      have value := toNat_octet count (by omega)
      refine readSegment_one rest ?_ (size.trans value.symm)
      rw [UInt8.lt_iff_toNat_lt, value]
      exact small
  | two large small =>
      have high := toNat_octet ((count - 192) / 256 + 192) (by omega)
      have low := toNat_octet ((count - 192) % 256) (by omega)
      refine readSegment_two rest ?_ ?_ ?_
      · rw [UInt8.lt_iff_toNat_lt, high]
        exact Nat.not_lt.mpr (Nat.le_add_left 192 _)
      · rw [UInt8.lt_iff_toNat_lt, high]
        have bound : (count - 192) / 256 + 192 < 224 := by omega
        exact bound
      · rw [size, high, low]
        omega
  | five fits =>
      subst size
      exact readSegment_five rest fits

theorem readSegment_of_power {front : Bytes} {power : Nat} (bound : power ≤ largestPower)
    (size : front.length = 2 ^ power) (rest : Bytes) :
    readSegment ⟨UInt8.ofNat (224 + power) :: (front ++ rest)⟩ =
      .ok (⟨front, false⟩, ⟨rest⟩) := by
  have small : power ≤ 30 := bound
  have value := toNat_octet (224 + power) (by omega)
  refine readSegment_partial rest ?_ ?_ ?_
  · rw [UInt8.lt_iff_toNat_lt, value]
    exact Nat.not_lt.mpr (Nat.le_add_right 224 power)
  · intro same
    have last : (UInt8.ofNat (224 + power)).toNat = 255 := congrArg UInt8.toNat same
    omega
  · have exponent : (224 + power) % 32 = power := by omega
    rw [value, exponent, size, Nat.one_shiftLeft]

-- Every segment has a length octet, so the octets bound the number of segments.
theorem readSegments_of_segmented (written : Segmented body octets) (pieces : List Bytes)
    (rest : Bytes) {fuel : Nat} (enough : octets.length < fuel) :
    readSegments fuel pieces ⟨octets ++ rest⟩ = .ok (pieces.reverse.flatten ++ body, ⟨rest⟩) := by
  induction written generalizing pieces fuel with
  | last announces =>
      obtain ⟨fuel, rfl⟩ := Nat.exists_eq_succ_of_ne_zero (Nat.ne_zero_of_lt enough)
      rw [List.append_assoc]
      simp [readSegments, readSegment_of_definite announces rest, bind, Except.bind, pure,
        Except.pure]
  | @segment front body octets power bound size _ ih =>
      obtain ⟨fuel, rfl⟩ := Nat.exists_eq_succ_of_ne_zero (Nat.ne_zero_of_lt enough)
      have fewer : octets.length < fuel := by
        simp only [List.length_cons, List.length_append] at enough
        omega
      have segment := readSegment_of_power bound size (octets ++ rest)
      rw [List.cons_append, List.append_assoc, readSegments]
      simp only [segment, ih (front :: pieces) fewer, bind, Except.bind]
      simp

theorem readNewBody_of_segmented (written : Segmented body octets) (rest : Bytes) :
    readNewBody ⟨octets ++ rest⟩ = .ok (body, ⟨rest⟩) := by
  have enough : octets.length < (octets ++ rest).length + 1 := by
    rw [List.length_append]
    omega
  have read := readSegments_of_segmented written [] rest enough
  rw [readNewBody, read]
  rfl

theorem readOldBody_of_counted (written : Counted kind body octets) (rest : Bytes) :
    readOldBody kind ⟨octets ++ rest⟩ = .ok (body, ⟨rest⟩) := by
  cases written with
  | one small =>
      have size : body.length = (UInt8.ofNat body.length).toNat :=
        (toNat_octet body.length small).symm
      simp only [readOldBody, if_true, List.cons_append, Cursor.octet_cons, bind, Except.bind]
      exact Cursor.take_append rest size
  | two small =>
      have low := toNat_octet (body.length % 256) (by omega)
      have high := toNat_octet (body.length / 256 % 256) (by omega)
      have size : body.length = (UInt8.ofNat (body.length / 256 % 256)).toNat * 256 +
          (UInt8.ofNat (body.length % 256)).toNat := by
        rw [low, high]
        omega
      have shape : Bytes.ofNat 2 body.length ++ body ++ rest =
          UInt8.ofNat (body.length / 256 % 256) :: UInt8.ofNat (body.length % 256) ::
            (body ++ rest) := by
        simp [Bytes.ofNat]
      rw [shape]
      have other : ¬ (1 : UInt8) = 0 := by decide
      simp only [readOldBody, if_neg other, if_true, Cursor.octet_cons, bind, Except.bind]
      exact Cursor.take_append rest size
  | four small =>
      have other : ¬ (2 : UInt8) = 0 ∧ ¬ (2 : UInt8) = 1 := by decide
      rw [List.append_assoc]
      simp only [readOldBody, if_neg other.1, if_neg other.2, if_true,
        Cursor.number_append (body ++ rest) small, bind, Except.bind]
      exact Cursor.take_append rest rfl

end Bodies

section Packets

variable {packet : Packet} {packets : List Packet} {octets : Bytes}

-- As for the new format, the few headers there are get looked at one by one.
theorem oldHeader_bits {tag kind : UInt8} (small : tag < 16) (known : kind < 4) :
    oldHeader tag kind &&& 0x80 ≠ 0 ∧ oldHeader tag kind &&& 0x40 = 0 ∧
      oldHeader tag kind &&& 0x03 = kind ∧ (oldHeader tag kind >>> 2) &&& 0x0F = tag := by
  have all : ∀ left : Fin 16, ∀ right : Fin 4,
      oldHeader (UInt8.ofNat left) (UInt8.ofNat right) &&& 0x80 ≠ 0 ∧
        oldHeader (UInt8.ofNat left) (UInt8.ofNat right) &&& 0x40 = 0 ∧
        oldHeader (UInt8.ofNat left) (UInt8.ofNat right) &&& 0x03 = UInt8.ofNat right ∧
        (oldHeader (UInt8.ofNat left) (UInt8.ofNat right) >>> 2) &&& 0x0F = UInt8.ofNat left := by
    decide +kernel
  have bits := all ⟨tag.toNat, UInt8.lt_iff_toNat_lt.mp small⟩
    ⟨kind.toNat, UInt8.lt_iff_toNat_lt.mp known⟩
  simpa only [UInt8.ofNat_toNat] using bits

theorem readOne_old {tag kind : UInt8} {body rest : Bytes} (small : tag < 16) (known : kind < 4)
    (read : readOldBody kind ⟨octets⟩ = .ok (body, ⟨rest⟩)) :
    readOne ⟨oldHeader tag kind :: octets⟩ = .ok (⟨tag, body⟩, ⟨rest⟩) := by
  obtain ⟨marked, old, sameKind, sameTag⟩ := oldHeader_bits small known
  simp [readOne, marked, old, sameKind, sameTag, read, bind, Except.bind, pure, Except.pure]

theorem kind_of_counted {kind : UInt8} {body : Bytes} (written : Counted kind body octets) :
    kind < 4 := by
  cases written <;> decide

theorem encodes_of_delimited (written : Delimited packet octets) : Encodes octets packet := by
  cases written with
  | new small segmented =>
      exact encodes_of_readNewBody small fun rest => readNewBody_of_segmented segmented rest
  | old small counted =>
      refine ⟨List.cons_ne_nil _ _, ?_⟩
      intro rest
      exact readOne_old small (kind_of_counted counted) (readOldBody_of_counted counted rest)

-- The packets behind the first are read in a row, and the last may take all that is left.
theorem readMany_of_written (written : Written packets octets) (done : List Packet) {fuel : Nat}
    (enough : octets.length ≤ fuel) :
    readMany fuel done ⟨octets⟩ = .ok (done.reverse ++ packets) := by
  induction written generalizing done fuel with
  | nil => cases fuel <;> simp [readMany, Cursor.isEmpty]
  | @cons packet others octets rest delimited _ ih =>
      obtain ⟨filled, reads⟩ := encodes_of_delimited delimited
      have positive := List.length_pos_iff.mpr filled
      rw [List.length_append] at enough
      obtain ⟨fuel, rfl⟩ : ∃ less, fuel = less + 1 :=
        Nat.exists_eq_succ_of_ne_zero (by omega)
      have some : (octets ++ rest).isEmpty = false := by simp [filled]
      simp only [readMany, Cursor.isEmpty, some, Bool.false_eq_true, if_false, reads, bind,
        Except.bind]
      rw [ih (packet :: done) (by omega)]
      simp
  | @indeterminate tag body small =>
      obtain ⟨fuel, rfl⟩ := Nat.exists_eq_succ_of_ne_zero (Nat.ne_zero_of_lt enough)
      have taken : readOldBody 3 ⟨body⟩ = .ok (body, ⟨[]⟩) := rfl
      have read := readOne_old small (by decide : (3 : UInt8) < 4) taken
      simp only [readMany, Cursor.isEmpty, List.isEmpty_cons, Bool.false_eq_true, if_false, read,
        bind, Except.bind]
      cases fuel <;> simp [readMany, Cursor.isEmpty]

/-- What the grammar derives for some packets is read as these packets. -/
theorem readAll_of_written (written : Written packets octets) : readAll octets = .ok packets :=
  readMany_of_written written [] (Nat.le_refl _)

end Packets

section Sizes

variable {packet : Packet} {packets : List Packet} {octets : Bytes}

theorem length_of_segmented {body : Bytes} (written : Segmented body octets) :
    body.length ≤ octets.length := by
  induction written with
  | last announces => simp
  | segment power bound size _ ih =>
      simp only [List.length_append, List.length_cons]
      omega

theorem length_of_delimited (written : Delimited packet octets) :
    packet.body.length < octets.length := by
  cases written with
  | new small segmented => exact Nat.lt_succ_of_le (length_of_segmented segmented)
  | old small counted =>
      cases counted <;>
        simp only [List.length_cons, List.length_append, Bytes.length_ofNat] <;> omega

theorem length_of_written (written : Written packets octets) :
    ∀ packet ∈ packets, packet.body.length < octets.length := by
  induction written with
  | nil =>
      intro packet member
      cases member
  | cons delimited _ ih =>
      intro packet member
      rw [List.length_append]
      rcases List.mem_cons.mp member with rfl | later
      · have shorter := length_of_delimited delimited
        omega
      · have shorter := ih packet later
        omega
  | indeterminate small =>
      intro packet member
      rw [List.mem_singleton.mp member]
      exact Nat.lt_succ_self _

end Sizes

end DeadDrop.Packet
