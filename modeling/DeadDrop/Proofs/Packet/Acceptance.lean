import DeadDrop.Proofs.Packet.Grammar
import Mathlib.Data.List.Induction

/-!
The reader accepts the wire forms and nothing else. Each read that succeeds took the octets of a
wire form off the front of what there was, so a message that is read was written by the grammar, in
this way and no other. What the grammar does not derive is refused as malformed. Every form has a
header besides the body, so every packet of a message is shorter than the message.
-/

namespace DeadDrop

namespace Bytes

theorem toNat_concat (front : Bytes) (octet : UInt8) :
    toNat (front ++ [octet]) = toNat front * 256 + octet.toNat := by
  rw [toNat_append]
  simp [toNat]

theorem toNat_lt (bytes : Bytes) : toNat bytes < 256 ^ bytes.length := by
  induction bytes using List.reverseRecOn with
  | nil => simp [toNat]
  | append_singleton front octet ih =>
      have small := octet.toNat_lt
      rw [toNat_concat, List.length_append, List.length_singleton, Nat.pow_succ]
      omega

theorem ofNat_toNat (bytes : Bytes) : ofNat bytes.length (toNat bytes) = bytes := by
  induction bytes using List.reverseRecOn with
  | nil => rfl
  | append_singleton front octet ih =>
      have small := octet.toNat_lt
      have high : (toNat front * 256 + octet.toNat) / 256 = toNat front := by omega
      have low : (toNat front * 256 + octet.toNat) % 256 = octet.toNat := by omega
      rw [toNat_concat, List.length_append, List.length_singleton, ofNat, high, low, ih,
        UInt8.ofNat_toNat]

end Bytes

namespace Packet

open Envelope (Error bind_eq_ok_iff)

section Cursors

variable {cursor next : Cursor} {count : Nat}

theorem Cursor.of_take {front : Bytes} (read : cursor.take count = .ok (front, next)) :
    front.length = count ∧ cursor.rest = front ++ next.rest := by
  simp only [Cursor.take] at read
  split at read
  · next full =>
      cases read
      exact ⟨full, (List.take_append_drop count cursor.rest).symm⟩
  · cases read

theorem Cursor.of_octet {first : UInt8} (read : cursor.octet = .ok (first, next)) :
    cursor.rest = first :: next.rest := by
  unfold Cursor.octet at read
  split at read
  · cases read
  · next shape =>
      cases read
      exact shape

theorem Cursor.of_number {value : Nat} (read : cursor.number count = .ok (value, next)) :
    value < 256 ^ count ∧ cursor.rest = Bytes.ofNat count value ++ next.rest := by
  unfold Cursor.number at read
  cases taken : cursor.take count with
  | error error =>
      rw [taken] at read
      cases read
  | ok pair =>
      rw [taken] at read
      cases read
      obtain ⟨rfl, shape⟩ := Cursor.of_take taken
      exact ⟨Bytes.toNat_lt _, by rw [Bytes.ofNat_toNat, shape]⟩

end Cursors

section Bodies

variable {cursor next : Cursor} {body : Bytes}

inductive Announced : Segment → Bytes → Prop where
  | last {octets length : Bytes} : DefiniteLength octets.length length →
      Announced ⟨octets, true⟩ length
  | power {octets : Bytes} (power : Nat) : power ≤ largestPower → octets.length = 2 ^ power →
      Announced ⟨octets, false⟩ [UInt8.ofNat (224 + power)]

theorem announced_of_octet {first : UInt8} {octets : Bytes} (small : first < 192)
    (size : octets.length = first.toNat) : Announced ⟨octets, true⟩ [first] := by
  have short : octets.length < 192 := size ▸ UInt8.lt_iff_toNat_lt.mp small
  have definite := DefiniteLength.one short
  rw [size, UInt8.ofNat_toNat, ← size] at definite
  exact .last definite

theorem announced_of_octets {first second : UInt8} {octets : Bytes} (large : ¬ first < 192)
    (small : first < 224)
    (size : octets.length = (first.toNat - 192) * 256 + second.toNat + 192) :
    Announced ⟨octets, true⟩ [first, second] := by
  have least : 192 ≤ first.toNat := Nat.not_lt.mp fun less => large (UInt8.lt_iff_toNat_lt.mpr less)
  have most : first.toNat < 224 := UInt8.lt_iff_toNat_lt.mp small
  have octet := second.toNat_lt
  have high : (octets.length - 192) / 256 + 192 = first.toNat := by omega
  have low : (octets.length - 192) % 256 = second.toNat := by omega
  have definite : DefiniteLength octets.length _ := .two (by omega) (by omega)
  rw [high, low, UInt8.ofNat_toNat, UInt8.ofNat_toNat] at definite
  exact .last definite

theorem announced_of_power {first : UInt8} {octets : Bytes} (large : ¬ first < 224)
    (other : first ≠ 255) (size : octets.length = 1 <<< (first.toNat % 32)) :
    Announced ⟨octets, false⟩ [first] := by
  have least : 224 ≤ first.toNat := Nat.not_lt.mp fun less => large (UInt8.lt_iff_toNat_lt.mpr less)
  have most := first.toNat_lt
  have apart : first.toNat ≠ 255 := fun same => other (UInt8.toNat_inj.mp same)
  have lead : 224 + first.toNat % 32 = first.toNat := by omega
  have bound : first.toNat % 32 ≤ largestPower := by
    have limit : largestPower = 30 := rfl
    omega
  rw [Nat.one_shiftLeft] at size
  have power := Announced.power (first.toNat % 32) bound size
  rw [lead, UInt8.ofNat_toNat] at power
  exact power

theorem announced_of_readSegment {segment : Segment}
    (read : readSegment cursor = .ok (segment, next)) :
    ∃ lead, Announced segment lead ∧ cursor.rest = lead ++ (segment.octets ++ next.rest) := by
  obtain ⟨⟨first, middle⟩, led, read⟩ := bind_eq_ok_iff.mp read
  have start := Cursor.of_octet led
  dsimp only at read
  -- The forms of a length differ in what they read before the octets they count.
  split at read
  · next small =>
      obtain ⟨⟨octets, last⟩, taken, done⟩ := bind_eq_ok_iff.mp read
      cases done
      obtain ⟨size, shape⟩ := Cursor.of_take taken
      exact ⟨[first], announced_of_octet small size, by rw [start, shape]; rfl⟩
  · next large =>
      split at read
      · next small =>
          obtain ⟨⟨second, later⟩, follows, read⟩ := bind_eq_ok_iff.mp read
          obtain ⟨⟨octets, last⟩, taken, done⟩ := bind_eq_ok_iff.mp read
          cases done
          obtain ⟨size, shape⟩ := Cursor.of_take taken
          refine ⟨[first, second], announced_of_octets large small size, ?_⟩
          rw [start, Cursor.of_octet follows, shape]
          rfl
      · next larger =>
          split at read
          · next longest =>
              obtain ⟨⟨value, later⟩, follows, read⟩ := bind_eq_ok_iff.mp read
              obtain ⟨⟨octets, last⟩, taken, done⟩ := bind_eq_ok_iff.mp read
              cases done
              obtain ⟨fits, counted⟩ := Cursor.of_number follows
              obtain ⟨size, shape⟩ := Cursor.of_take taken
              dsimp only at size
              subst size
              refine ⟨_, .last (.five fits), ?_⟩
              rw [start, longest, counted, shape, List.cons_append]
          · next other =>
              obtain ⟨⟨octets, last⟩, taken, done⟩ := bind_eq_ok_iff.mp read
              cases done
              obtain ⟨size, shape⟩ := Cursor.of_take taken
              exact ⟨[first], announced_of_power larger other size, by rw [start, shape]; rfl⟩

theorem segmented_of_readSegments {fuel : Nat} {pieces : List Bytes}
    (read : readSegments fuel pieces cursor = .ok (body, next)) :
    ∃ tail octets, body = pieces.reverse.flatten ++ tail ∧ Segmented tail octets ∧
      cursor.rest = octets ++ next.rest := by
  induction fuel generalizing pieces cursor with
  | zero => cases read
  | succ fuel ih =>
      obtain ⟨⟨segment, middle⟩, taken, read⟩ := bind_eq_ok_iff.mp read
      obtain ⟨lead, announced, start⟩ := announced_of_readSegment taken
      dsimp only at read start
      cases announced with
      | last definite =>
          cases read
          refine ⟨_, _, ?_, .last definite, by rw [start, List.append_assoc]⟩
          simp
      | @power front power bound size =>
          obtain ⟨tail, octets, rfl, written, shape⟩ := ih read
          refine ⟨front ++ tail, _, ?_, .segment power bound size written, ?_⟩
          · simp
          · rw [start, shape]
            simp

theorem segmented_of_readNewBody (read : readNewBody cursor = .ok (body, next)) :
    ∃ octets, Segmented body octets ∧ cursor.rest = octets ++ next.rest := by
  obtain ⟨tail, octets, same, written, shape⟩ := segmented_of_readSegments read
  rw [List.reverse_nil, List.flatten_nil, List.nil_append] at same
  exact ⟨octets, same ▸ written, shape⟩

theorem eq_three_of_other {kind : UInt8} (known : kind < 4) (first : ¬ kind = 0)
    (second : ¬ kind = 1) (third : ¬ kind = 2) : kind = 3 := by
  simp only [UInt8.lt_iff_toNat_lt, ← UInt8.toNat_inj, UInt8.reduceToNat] at *
  omega

theorem counted_of_readOldBody {kind : UInt8} (known : kind < 4)
    (read : readOldBody kind cursor = .ok (body, next)) :
    (∃ octets, Counted kind body octets ∧ cursor.rest = octets ++ next.rest) ∨
      kind = 3 ∧ cursor.rest = body ∧ next.rest = [] := by
  unfold readOldBody at read
  split at read
  · next same =>
      obtain ⟨⟨length, middle⟩, counted, taken⟩ := bind_eq_ok_iff.mp read
      obtain ⟨size, shape⟩ := Cursor.of_take taken
      have written : Counted 0 body _ := .one (size ▸ length.toNat_lt)
      rw [size, UInt8.ofNat_toNat] at written
      refine .inl ⟨length :: body, same ▸ written, ?_⟩
      rw [Cursor.of_octet counted, shape, List.cons_append]
  · split at read
    · next same =>
        obtain ⟨⟨high, middle⟩, counted, read⟩ := bind_eq_ok_iff.mp read
        obtain ⟨⟨low, later⟩, follows, taken⟩ := bind_eq_ok_iff.mp read
        obtain ⟨size, shape⟩ := Cursor.of_take taken
        have spelled : Bytes.toNat [high, low] = body.length := by
          rw [size]
          simp [Bytes.toNat]
        have written : Counted 1 body _ := .two (spelled ▸ Bytes.toNat_lt [high, low])
        rw [← spelled] at written
        have width : Bytes.ofNat 2 (Bytes.toNat [high, low]) = [high, low] :=
          Bytes.ofNat_toNat [high, low]
        rw [width] at written
        refine .inl ⟨[high, low] ++ body, same ▸ written, ?_⟩
        rw [Cursor.of_octet counted, Cursor.of_octet follows, shape]
        rfl
    · split at read
      · next same =>
          obtain ⟨⟨length, middle⟩, counted, taken⟩ := bind_eq_ok_iff.mp read
          obtain ⟨fits, spelled⟩ := Cursor.of_number counted
          obtain ⟨size, shape⟩ := Cursor.of_take taken
          subst size
          refine .inl ⟨_, same ▸ Counted.four fits, ?_⟩
          rw [spelled, shape, List.append_assoc]
      · next first second third =>
          cases read
          exact .inr ⟨eq_three_of_other known first second third, rfl, rfl⟩

end Bodies

section Packets

variable {cursor next : Cursor} {packet : Packet} {packets : List Packet} {octets : Bytes}

-- The octets get looked at one by one, as in the other direction.
theorem newHeader_eq (header : UInt8) (marked : ¬ header &&& 0x80 = 0)
    (new : header &&& 0x40 ≠ 0) :
    header &&& 0x3F < 64 ∧ 0xC0 ||| (header &&& 0x3F) = header := by
  have all : ∀ number : Fin 256, ¬ UInt8.ofFin number &&& 0x80 = 0 →
      UInt8.ofFin number &&& 0x40 ≠ 0 →
      UInt8.ofFin number &&& 0x3F < 64 ∧
        0xC0 ||| (UInt8.ofFin number &&& 0x3F) = UInt8.ofFin number := by
    decide +kernel
  exact all header.toFin marked new

theorem oldHeader_eq (header : UInt8) (marked : ¬ header &&& 0x80 = 0)
    (old : ¬ header &&& 0x40 ≠ 0) :
    (header >>> 2) &&& 0x0F < 16 ∧ header &&& 0x03 < 4 ∧
      oldHeader ((header >>> 2) &&& 0x0F) (header &&& 0x03) = header := by
  have all : ∀ number : Fin 256, ¬ UInt8.ofFin number &&& 0x80 = 0 →
      ¬ UInt8.ofFin number &&& 0x40 ≠ 0 →
      (UInt8.ofFin number >>> 2) &&& 0x0F < 16 ∧ UInt8.ofFin number &&& 0x03 < 4 ∧
        oldHeader ((UInt8.ofFin number >>> 2) &&& 0x0F) (UInt8.ofFin number &&& 0x03) =
          UInt8.ofFin number := by
    decide +kernel
  exact all header.toFin marked old

theorem delimited_of_readOne (read : readOne cursor = .ok (packet, next)) :
    (∃ octets, Delimited packet octets ∧ cursor.rest = octets ++ next.rest) ∨
      ∃ tag < 16, cursor.rest = oldHeader tag 3 :: packet.body ∧ packet.tag = tag ∧
        next.rest = [] := by
  obtain ⟨⟨header, middle⟩, led, read⟩ := bind_eq_ok_iff.mp read
  have start := Cursor.of_octet led
  dsimp only at read
  split at read
  · cases read
  · next marked =>
      split at read
      · next new =>
          obtain ⟨⟨body, last⟩, taken, done⟩ := bind_eq_ok_iff.mp read
          cases done
          obtain ⟨small, same⟩ := newHeader_eq header marked new
          obtain ⟨octets, written, shape⟩ := segmented_of_readNewBody taken
          refine .inl ⟨_, .new small written, ?_⟩
          rw [start, same, shape, List.cons_append]
      · next old =>
          obtain ⟨⟨body, last⟩, taken, done⟩ := bind_eq_ok_iff.mp read
          cases done
          obtain ⟨small, known, same⟩ := oldHeader_eq header marked old
          rcases counted_of_readOldBody known taken with
            ⟨octets, written, shape⟩ | ⟨kind, shape, ended⟩
          · refine .inl ⟨_, .old small written, ?_⟩
            rw [start, same, shape, List.cons_append]
          · refine .inr ⟨_, small, ?_, rfl, ended⟩
            rw [kind] at same
            rw [start, same, shape]

theorem eq_nil_of_written (written : Written packets []) : packets = [] :=
  Except.ok.inj (readAll_of_written written).symm

-- The header of each packet leaves less to read, so the fuel never decides anything.
theorem written_of_readMany {fuel : Nat} {done : List Packet}
    (enough : cursor.rest.length ≤ fuel) (read : readMany fuel done cursor = .ok packets) :
    ∃ others, packets = done.reverse ++ others ∧ Written others cursor.rest := by
  induction fuel generalizing done cursor with
  | zero =>
      cases read
      have none : cursor.rest = [] := List.eq_nil_of_length_eq_zero (Nat.le_zero.mp enough)
      exact ⟨[], (List.append_nil _).symm, none ▸ .nil⟩
  | succ fuel ih =>
      unfold readMany at read
      split at read
      · next ended =>
          cases read
          have none : cursor.rest = [] := List.isEmpty_iff.mp ended
          exact ⟨[], (List.append_nil _).symm, none ▸ .nil⟩
      · obtain ⟨⟨packet, next⟩, taken, read⟩ := bind_eq_ok_iff.mp read
        dsimp only at read
        rcases delimited_of_readOne taken with
          ⟨octets, delimited, shape⟩ | ⟨tag, small, shape, same, ended⟩
        · have shorter : next.rest.length ≤ fuel := by
            have filled := length_of_delimited delimited
            rw [shape, List.length_append] at enough
            omega
          obtain ⟨others, rfl, written⟩ := ih shorter read
          exact ⟨packet :: others, by simp, shape ▸ .cons delimited written⟩
        · obtain ⟨others, rfl, written⟩ := ih (by rw [ended]; exact Nat.zero_le _) read
          rw [ended] at written
          obtain rfl := eq_nil_of_written written
          refine ⟨[packet], by simp, ?_⟩
          rw [shape, ← same]
          exact .indeterminate (same ▸ small)

theorem written_of_readAll (read : readAll octets = .ok packets) : Written packets octets := by
  obtain ⟨others, rfl, written⟩ := written_of_readMany (Nat.le_refl _) read
  exact written

theorem length_of_readAll (read : readAll octets = .ok packets) (member : packet ∈ packets) :
    packet.body.length < octets.length :=
  length_of_written (written_of_readAll read) packet member

end Packets

section Refusals

variable {α β : Type}

/-- If this fails, what it read is malformed. -/
def Strict (result : Except Error α) : Prop :=
  ∀ error, result = .error error → ∃ defect, error = .malformed defect

theorem strict_ok (value : α) : Strict (.ok value : Except Error α) := nofun

theorem Strict.bind {first : Except Error α} {next : α → Except Error β} (strict : Strict first)
    (rest : ∀ value, Strict (next value)) : Strict (first >>= next) := by
  intro error failed
  cases first with
  | error cause =>
      cases failed
      exact strict error rfl
  | ok value => exact rest value error failed

theorem strict_octet (cursor : Cursor) : Strict cursor.octet := by
  intro error failed
  unfold Cursor.octet at failed
  split at failed
  · cases failed
    exact ⟨_, rfl⟩
  · cases failed

theorem strict_take (cursor : Cursor) (count : Nat) : Strict (cursor.take count) := by
  intro error failed
  simp only [Cursor.take] at failed
  split at failed
  · cases failed
  · cases failed
    exact ⟨_, rfl⟩

theorem strict_number (cursor : Cursor) (width : Nat) : Strict (cursor.number width) := by
  intro error failed
  apply strict_take cursor width error
  rw [Cursor.number] at failed
  cases taken : cursor.take width with
  | error cause =>
      rw [taken] at failed
      cases failed
      rfl
  | ok pair =>
      rw [taken] at failed
      cases failed

theorem strict_readSegment (cursor : Cursor) : Strict (readSegment cursor) := by
  refine (strict_octet cursor).bind ?_
  rintro ⟨first, cursor⟩
  dsimp only
  split
  · exact (strict_take _ _).bind fun _ => strict_ok _
  · split
    · refine (strict_octet cursor).bind ?_
      rintro ⟨second, cursor⟩
      exact (strict_take _ _).bind fun _ => strict_ok _
    · split
      · refine (strict_number cursor 4).bind ?_
        rintro ⟨length, cursor⟩
        exact (strict_take _ _).bind fun _ => strict_ok _
      · exact (strict_take _ _).bind fun _ => strict_ok _

theorem strict_readSegments (fuel : Nat) (pieces : List Bytes) (cursor : Cursor) :
    Strict (readSegments fuel pieces cursor) := by
  induction fuel generalizing pieces cursor with
  | zero =>
      intro error failed
      cases failed
      exact ⟨_, rfl⟩
  | succ fuel ih =>
      refine (strict_readSegment cursor).bind ?_
      rintro ⟨segment, cursor⟩
      dsimp only
      split
      · exact strict_ok _
      · exact ih _ _

theorem strict_readOldBody (kind : UInt8) (cursor : Cursor) :
    Strict (readOldBody kind cursor) := by
  unfold readOldBody
  split
  · exact (strict_octet cursor).bind fun _ => strict_take _ _
  · split
    · refine (strict_octet cursor).bind ?_
      rintro ⟨high, cursor⟩
      exact (strict_octet cursor).bind fun _ => strict_take _ _
    · split
      · exact (strict_number cursor 4).bind fun _ => strict_take _ _
      · exact strict_ok _

theorem strict_readOne (cursor : Cursor) : Strict (readOne cursor) := by
  refine (strict_octet cursor).bind ?_
  rintro ⟨header, cursor⟩
  dsimp only
  split
  · intro error failed
    cases failed
    exact ⟨_, rfl⟩
  · split
    · exact (strict_readSegments _ _ _).bind fun _ => strict_ok _
    · exact (strict_readOldBody _ _).bind fun _ => strict_ok _

theorem strict_readMany (fuel : Nat) (done : List Packet) (cursor : Cursor) :
    Strict (readMany fuel done cursor) := by
  induction fuel generalizing done cursor with
  | zero => exact strict_ok _
  | succ fuel ih =>
      unfold readMany
      split
      · exact strict_ok _
      · exact (strict_readOne cursor).bind fun _ => ih _ _

end Refusals

/-- Exactly the grammar is read: a string of octets gives the packets whose wire forms it is, in
order, and one that is no row of wire forms is malformed. -/
theorem readAll_reads_grammar (octets : Bytes) :
    (∀ packets, readAll octets = .ok packets ↔ Written packets octets) ∧
      ((∃ defect, readAll octets = .error (.malformed defect)) ↔
        ¬ ∃ packets, Written packets octets) := by
  have reads (packets : List Packet) : readAll octets = .ok packets ↔ Written packets octets :=
    ⟨written_of_readAll, readAll_of_written⟩
  refine ⟨reads, ?_, ?_⟩
  · rintro ⟨defect, failed⟩ ⟨packets, written⟩
    rw [(reads packets).mpr written] at failed
    cases failed
  · intro unwritten
    cases result : readAll octets with
    | ok packets => exact absurd ⟨packets, (reads packets).mp result⟩ unwritten
    | error error =>
        obtain ⟨defect, rfl⟩ := strict_readMany _ _ _ error result
        exact ⟨defect, rfl⟩

end Packet

end DeadDrop
