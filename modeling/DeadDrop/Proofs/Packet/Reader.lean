import DeadDrop.Packet.Frame
import DeadDrop.Proofs.Checked

/-!
The readers over a string and a position. A position is a number of one word: what would reach past
the last number, or past the string, is refused before anything is cut out of the string. Every
reader here tracks the one that holds what is left of the string, so no index, slice, difference or
shift in them leaves its range.
-/

namespace DeadDrop.Packet

open Envelope (Error)
open Checked (Tracks index slice minus shift wordBits wordSize)

structure Reader where
  data : Bytes
  position : Nat

namespace Reader

section Read

def start (data : Bytes) : Reader := ⟨data, 0⟩

def isEmpty (reader : Reader) : Bool := reader.data.length ≤ reader.position

/-- An end beyond the last number of a word is refused like one beyond the string. -/
def take (reader : Reader) (count : Nat) : Checked (Bytes × Reader) := do
  let stop := reader.position + count
  if stop < wordSize ∧ stop ≤ reader.data.length then
    let front ← slice reader.data reader.position stop
    return (front, ⟨reader.data, stop⟩)
  else throw (.malformed (.truncated count))

def octet (reader : Reader) : Checked (UInt8 × Reader) := do
  let (front, reader) ← reader.take 1
  let first ← index front 0
  return (first, reader)

def number (reader : Reader) : Checked (Nat × Reader) := do
  let (front, reader) ← reader.take 4
  let first ← index front 0
  let second ← index front 1
  let third ← index front 2
  let fourth ← index front 3
  return (Bytes.toNat [first, second, third, fourth], reader)

def remainder (reader : Reader) : Checked (Bytes × Reader) := do
  let rest ← slice reader.data reader.position reader.data.length
  return (rest, ⟨reader.data, reader.data.length⟩)

def readSegment (reader : Reader) : Checked (Segment × Reader) := do
  let (first, reader) ← reader.octet
  if first < 192 then
    let (octets, reader) ← reader.take first.toNat
    return (⟨octets, true⟩, reader)
  else if first < 224 then
    let (second, reader) ← reader.octet
    let high ← shift (← minus first.toNat 192) 8
    let (octets, reader) ← reader.take (high + second.toNat + 192)
    return (⟨octets, true⟩, reader)
  else if first = 255 then
    let (length, reader) ← reader.number
    let (octets, reader) ← reader.take length
    return (⟨octets, true⟩, reader)
  else
    let length ← shift 1 (first.toNat % 32)
    let (octets, reader) ← reader.take length
    return (⟨octets, false⟩, reader)

/-- Bounded by what is left of the string, as over cursors; so are the packets below. -/
def readSegments : Nat → List Bytes → Reader → Checked (Bytes × Reader)
  | 0, _, _ => throw (.malformed (.truncated 1))
  | more + 1, pieces, reader => do
      let (segment, reader) ← readSegment reader
      let pieces := segment.octets :: pieces
      if segment.last then return (pieces.reverse.flatten, reader)
      else readSegments more pieces reader

def readNewBody (reader : Reader) : Checked (Bytes × Reader) := do
  let left ← minus reader.data.length reader.position
  readSegments (left + 1) [] reader

def readOldBody (kind : UInt8) (reader : Reader) : Checked (Bytes × Reader) :=
  if kind = 0 then do
    let (length, reader) ← reader.octet
    reader.take length.toNat
  else if kind = 1 then do
    let (high, reader) ← reader.octet
    let (low, reader) ← reader.octet
    reader.take (high.toNat * 256 + low.toNat)
  else if kind = 2 then do
    let (length, reader) ← reader.number
    reader.take length
  else reader.remainder

def readOne (reader : Reader) : Checked (Packet × Reader) := do
  let (header, reader) ← reader.octet
  if header &&& 0x80 = 0 then throw (.malformed (.header header))
  else if header &&& 0x40 ≠ 0 then
    let (body, reader) ← readNewBody reader
    return (⟨header &&& 0x3F, body⟩, reader)
  else
    let (body, reader) ← readOldBody (header &&& 0x03) reader
    return (⟨(header >>> 2) &&& 0x0F, body⟩, reader)

def readMany : Nat → List Packet → Reader → Checked (List Packet)
  | 0, done, _ => return done.reverse
  | more + 1, done, reader =>
      if reader.isEmpty then return done.reverse
      else do
        let (packet, reader) ← readOne reader
        readMany more (packet :: done) reader

def readAll (data : Bytes) : Checked (List Packet) := readMany data.length [] (start data)

end Read

section Places

structure At (reader : Reader) (cursor : Cursor) : Prop where
  inside : reader.position ≤ reader.data.length
  fits : reader.data.length < wordSize
  ahead : cursor.rest = reader.data.drop reader.position

def Read {α : Type} (read : α × Reader) (plain : α × Cursor) : Prop :=
  read.1 = plain.1 ∧ At read.2 plain.2

variable {reader : Reader} {cursor : Cursor} {count : Nat}

theorem at_start {data : Bytes} (fits : data.length < wordSize) : At (start data) ⟨data⟩ :=
  ⟨Nat.zero_le _, fits, rfl⟩

theorem At.length_rest (place : At reader cursor) :
    cursor.rest.length = reader.data.length - reader.position := by
  rw [place.ahead, List.length_drop]

theorem At.isEmpty_eq (place : At reader cursor) : reader.isEmpty = cursor.isEmpty := by
  rw [Bool.eq_iff_iff, Reader.isEmpty, decide_eq_true_iff, Cursor.isEmpty, List.isEmpty_iff,
    place.ahead, List.drop_eq_nil_iff]

theorem at_end (fits : reader.data.length < wordSize) :
    At ⟨reader.data, reader.data.length⟩ ⟨[]⟩ :=
  ⟨Nat.le_refl _, fits, by rw [List.drop_length]⟩

theorem At.stop_le (place : At reader cursor) (enough : count ≤ cursor.rest.length) :
    reader.position + count < wordSize ∧ reader.position + count ≤ reader.data.length := by
  have inside := place.inside
  have fits := place.fits
  rw [place.length_rest] at enough
  omega

theorem At.slice_eq (place : At reader cursor) (enough : count ≤ cursor.rest.length) :
    slice reader.data reader.position (reader.position + count) =
      some (cursor.rest.take count) := by
  rw [Checked.slice_of_le (Nat.le_add_right _ _) (place.stop_le enough).2, place.ahead,
    List.drop_take, Nat.add_sub_cancel_left]

theorem At.onward (place : At reader cursor) (enough : count ≤ cursor.rest.length) :
    At ⟨reader.data, reader.position + count⟩ ⟨cursor.rest.drop count⟩ :=
  ⟨(place.stop_le enough).2, place.fits, by rw [place.ahead, List.drop_drop]⟩

theorem At.take_ok (place : At reader cursor) (enough : count ≤ cursor.rest.length) :
    reader.take count =
        pure (cursor.rest.take count, ⟨reader.data, reader.position + count⟩) ∧
      At ⟨reader.data, reader.position + count⟩ ⟨cursor.rest.drop count⟩ := by
  constructor
  · rw [Reader.take, if_pos (place.stop_le enough), place.slice_eq enough]
    rfl
  · exact place.onward enough

theorem At.not_stop_le (place : At reader cursor) (short : cursor.rest.length < count) :
    ¬ (reader.position + count < wordSize ∧ reader.position + count ≤ reader.data.length) := by
  have inside := place.inside
  rw [place.length_rest] at short
  omega

theorem At.take_short (place : At reader cursor) (short : cursor.rest.length < count) :
    reader.take count = throw (.malformed (.truncated count)) := by
  rw [Reader.take, if_neg (place.not_stop_le short)]

theorem At.remainder_eq (place : At reader cursor) :
    reader.remainder = pure (cursor.rest, ⟨reader.data, reader.data.length⟩) := by
  rw [Reader.remainder, Checked.slice_to_end place.inside, ← place.ahead]
  rfl

end Places

section Tracking

variable {reader : Reader} {cursor : Cursor}

theorem tracks_take (place : At reader cursor) (count : Nat) :
    Tracks Read (reader.take count) (cursor.take count) := by
  by_cases enough : count ≤ cursor.rest.length
  · obtain ⟨taken, next⟩ := place.take_ok enough
    have full : (cursor.rest.take count).length = count := by
      rw [List.length_take, Nat.min_eq_left enough]
    rw [taken, Cursor.take, if_pos full]
    exact .done ⟨rfl, next⟩
  · have cut : (cursor.rest.take count).length ≠ count := by
      rw [List.length_take]
      omega
    rw [place.take_short (Nat.lt_of_not_le enough), Cursor.take, if_neg cut]
    exact .failed _

theorem tracks_octet (place : At reader cursor) : Tracks Read reader.octet cursor.octet := by
  cases shape : cursor.rest with
  | nil =>
      have short : cursor.rest.length < 1 := by rw [shape, List.length_nil]; exact Nat.one_pos
      rw [Reader.octet, place.take_short short, Cursor.octet, shape]
      exact .failed _
  | cons first rest =>
      have enough : 1 ≤ cursor.rest.length := by rw [shape]; exact Nat.le_add_left _ _
      obtain ⟨taken, next⟩ := place.take_ok enough
      rw [shape] at taken next
      rw [Reader.octet, taken, Cursor.octet, shape]
      exact .done ⟨rfl, next⟩

theorem tracks_number (place : At reader cursor) : Tracks Read reader.number (cursor.number 4) := by
  by_cases enough : 4 ≤ cursor.rest.length
  · obtain ⟨taken, next⟩ := place.take_ok enough
    obtain ⟨first, second, third, fourth, rest, shape⟩ :
        ∃ first second third fourth rest,
          cursor.rest = first :: second :: third :: fourth :: rest := by
      match cursor.rest, enough with
      | first :: second :: third :: fourth :: rest, _ => exact ⟨_, _, _, _, _, rfl⟩
    have front : cursor.rest.take 4 = [first, second, third, fourth] := by rw [shape]; rfl
    rw [front] at taken
    rw [Reader.number, taken, Cursor.number, Cursor.take, if_pos (by rw [front]; rfl), front]
    exact .done ⟨rfl, next⟩
  · have short := Nat.lt_of_not_le enough
    have cut : (cursor.rest.take 4).length ≠ 4 := by
      rw [List.length_take]
      omega
    rw [Reader.number, place.take_short short, Cursor.number, Cursor.take, if_neg cut]
    exact .failed _

theorem tracks_remainder (place : At reader cursor) :
    Tracks Read reader.remainder (.ok cursor.remainder) := by
  rw [place.remainder_eq]
  exact .done ⟨rfl, at_end place.fits⟩

theorem tracks_segment (place : At reader cursor) (count : Nat) (last : Bool) :
    Tracks Read (do
      let (octets, reader) ← reader.take count
      return ((⟨octets, last⟩ : Segment), reader)) (do
      let (octets, cursor) ← cursor.take count
      return ((⟨octets, last⟩ : Segment), cursor)) := by
  refine (tracks_take place count).bind ?_
  rintro ⟨octets, reader⟩ ⟨_, cursor⟩ ⟨rfl, place⟩
  exact .done ⟨rfl, place⟩

theorem shift_of_two (first : UInt8) :
    shift (first.toNat - 192) 8 = some ((first.toNat - 192) * 256) := by
  have most := first.toNat_lt
  have moved : (first.toNat - 192) <<< 8 = (first.toNat - 192) * 256 := Nat.shiftLeft_eq _ 8
  have small : (first.toNat - 192) <<< 8 < wordSize := by
    rw [moved, wordSize, UInt64.size]
    omega
  rw [Checked.shift_of_lt (by decide) small, moved]

theorem shift_of_power (first : UInt8) :
    shift 1 (first.toNat % 32) = some (1 <<< (first.toNat % 32)) := by
  have few : first.toNat % 32 < wordBits :=
    Nat.lt_of_lt_of_le (Nat.mod_lt _ (by decide)) (by decide)
  have small : 1 <<< (first.toNat % 32) < wordSize := by
    rw [Nat.shiftLeft_eq, Nat.one_mul]
    calc 2 ^ (first.toNat % 32)
        < 2 ^ wordBits := Nat.pow_lt_pow_right (by decide) few
      _ = wordSize := by decide
  exact Checked.shift_of_lt few small

theorem tracks_readSegment (place : At reader cursor) :
    Tracks Read (readSegment reader) (Packet.readSegment cursor) := by
  refine (tracks_octet place).bind ?_
  rintro ⟨first, reader⟩ ⟨_, cursor⟩ ⟨rfl, place⟩
  refine .ite (fun _ => tracks_segment place _ true) fun large => ?_
  refine .ite (fun _ => ?_) fun _ => .ite (fun _ => ?_) fun _ => ?_
  · refine (tracks_octet place).bind ?_
    rintro ⟨second, reader⟩ ⟨_, cursor⟩ ⟨rfl, place⟩
    have least : 192 ≤ first.toNat := UInt8.le_iff_toNat_le.mp (UInt8.not_lt.mp large)
    dsimp only
    rw [Checked.minus_of_le least, Checked.some_bind, shift_of_two, Checked.some_bind]
    exact tracks_segment place _ true
  · refine (tracks_number place).bind ?_
    rintro ⟨length, reader⟩ ⟨_, cursor⟩ ⟨rfl, place⟩
    exact tracks_segment place _ true
  · dsimp only
    rw [shift_of_power, Checked.some_bind]
    exact tracks_segment place _ false

theorem tracks_readSegments (fuel : Nat) (pieces : List Bytes) (place : At reader cursor) :
    Tracks Read (readSegments fuel pieces reader) (Packet.readSegments fuel pieces cursor) := by
  induction fuel generalizing pieces reader cursor with
  | zero => exact .failed _
  | succ more ih =>
      refine (tracks_readSegment place).bind ?_
      rintro ⟨segment, reader⟩ ⟨_, cursor⟩ ⟨rfl, place⟩
      exact .ite (fun _ => .done ⟨rfl, place⟩) fun _ => ih _ place

theorem tracks_readNewBody (place : At reader cursor) :
    Tracks Read (readNewBody reader) (Packet.readNewBody cursor) := by
  rw [readNewBody, Checked.minus_of_le place.inside, Checked.some_bind, ← place.length_rest]
  exact tracks_readSegments _ [] place

theorem tracks_readOldBody (kind : UInt8) (place : At reader cursor) :
    Tracks Read (readOldBody kind reader) (Packet.readOldBody kind cursor) := by
  refine .ite (fun _ => ?_) fun _ => .ite (fun _ => ?_) fun _ => .ite (fun _ => ?_) fun _ => ?_
  · refine (tracks_octet place).bind ?_
    rintro ⟨length, reader⟩ ⟨_, cursor⟩ ⟨rfl, place⟩
    exact tracks_take place _
  · refine (tracks_octet place).bind ?_
    rintro ⟨high, reader⟩ ⟨_, cursor⟩ ⟨rfl, place⟩
    refine (tracks_octet place).bind ?_
    rintro ⟨low, reader⟩ ⟨_, cursor⟩ ⟨rfl, place⟩
    exact tracks_take place _
  · refine (tracks_number place).bind ?_
    rintro ⟨length, reader⟩ ⟨_, cursor⟩ ⟨rfl, place⟩
    exact tracks_take place _
  · exact tracks_remainder place

theorem tracks_readOne (place : At reader cursor) :
    Tracks Read (readOne reader) (Packet.readOne cursor) := by
  refine (tracks_octet place).bind ?_
  rintro ⟨header, reader⟩ ⟨_, cursor⟩ ⟨rfl, place⟩
  refine .ite (fun _ => .failed _) fun _ => .ite (fun _ => ?_) fun _ => ?_
  · refine (tracks_readNewBody place).bind ?_
    rintro ⟨body, reader⟩ ⟨_, cursor⟩ ⟨rfl, place⟩
    exact .done ⟨rfl, place⟩
  · refine (tracks_readOldBody _ place).bind ?_
    rintro ⟨body, reader⟩ ⟨_, cursor⟩ ⟨rfl, place⟩
    exact .done ⟨rfl, place⟩

theorem tracks_readMany (fuel : Nat) (done : List Packet) (place : At reader cursor) :
    Tracks Eq (readMany fuel done reader) (Packet.readMany fuel done cursor) := by
  induction fuel generalizing done reader cursor with
  | zero => exact .done rfl
  | succ more ih =>
      rw [readMany, Packet.readMany, place.isEmpty_eq]
      refine .ite (fun _ => .done rfl) fun _ => ?_
      refine (tracks_readOne place).bind ?_
      rintro ⟨packet, reader⟩ ⟨_, cursor⟩ ⟨rfl, place⟩
      exact ih _ place

/-- Reading all packets of a string never leaves the range of an operation. -/
theorem tracks_readAll {data : Bytes} (fits : data.length < wordSize) :
    Tracks Eq (readAll data) (Packet.readAll data) :=
  tracks_readMany data.length [] (at_start fits)

end Tracking

end Reader

end DeadDrop.Packet
