import DeadDrop.Proofs.Packet.Acceptance
import DeadDrop.Proofs.Packet.Reader
import Mathlib.Data.List.TakeDrop

/-!
Reads in a row. A reader is one thing that moves: each read finds it where the one before left it,
also where that one failed. A read fails exactly if less is left than it wants, and then the reader
has not moved; else it hands out the octets it moves past. So however reads that fail and reads that
succeed alternate, what was handed out is the front of the string, up to the position.
-/

namespace DeadDrop.Packet

open Envelope (Error)
open Checked (index slice wordSize)

inductive Step where
  | octet
  | number
  | take (count : Nat)
  | remainder

/-- What a step hands out. -/
inductive Taken where
  | octet (value : UInt8)
  | number (value : Nat)
  | octets (front : Bytes)
  deriving DecidableEq

/-- The octets that were taken; a number was read from four, the most significant first. -/
def Taken.bytes : Taken → Bytes
  | octet value => [value]
  | number value => Bytes.ofNat 4 value
  | octets front => front

def gained (answers : List (Except Error Taken)) : Bytes :=
  answers.flatMap fun
    | .ok taken => taken.bytes
    | .error _ => []

namespace Step

def wants : Step → Nat
  | octet => 1
  | number => 4
  | take count => count
  | remainder => 0

def read : Step → Cursor → Except Error (Taken × Cursor)
  | octet, cursor => cursor.octet.map fun (value, next) => (.octet value, next)
  | number, cursor => (cursor.number 4).map fun (value, next) => (.number value, next)
  | take count, cursor => (cursor.take count).map fun (front, next) => (.octets front, next)
  | remainder, cursor =>
      let (rest, next) := cursor.remainder
      .ok (.octets rest, next)

def readAll : List Step → Cursor → List (Except Error Taken) × Cursor
  | [], cursor => ([], cursor)
  | step :: rest, cursor =>
      match step.read cursor with
      | .ok (taken, next) =>
          let (answers, last) := readAll rest next
          (.ok taken :: answers, last)
      | .error error =>
          let (answers, last) := readAll rest cursor
          (.error error :: answers, last)

end Step

section Moves

/-- What a reader answers and where it then is, whether it failed or not; nothing, if an operation
left its range. -/
abbrev Move (α : Type) : Type := ExceptT Error (StateT Reader Option) α

namespace Move

def take (count : Nat) : Move Bytes := do
  let reader ← get
  let stop := reader.position + count
  if stop < wordSize ∧ stop ≤ reader.data.length then
    let front ← slice reader.data reader.position stop
    set ({ reader with position := stop } : Reader)
    return front
  else throw (.malformed (.truncated count))

def octet : Move UInt8 := do
  let front ← take 1
  let first ← index front 0
  return first

def number : Move Nat := do
  let front ← take 4
  let first ← index front 0
  let second ← index front 1
  let third ← index front 2
  let fourth ← index front 3
  return Bytes.toNat [first, second, third, fourth]

def remainder : Move Bytes := do
  let reader ← get
  let rest ← slice reader.data reader.position reader.data.length
  set ({ reader with position := reader.data.length } : Reader)
  return rest

end Move

def Step.move : Step → Move Taken
  | octet => return .octet (← Move.octet)
  | number => return .number (← Move.number)
  | take count => return .octets (← Move.take count)
  | remainder => return .octets (← Move.remainder)

/-- All steps, each where the one before has left the reader. -/
def Step.moveAll : List Step → Reader → Option (List (Except Error Taken) × Reader)
  | [], reader => some ([], reader)
  | step :: rest, reader => do
      let (answer, reader) ← step.move reader
      let (answers, reader) ← moveAll rest reader
      return (answer :: answers, reader)

end Moves

section One

variable {α β : Type} {reader after : Reader} {cursor : Cursor} {count : Nat} {step : Step}

theorem Move.bind_ok {move : Move α} {value : α} (moved : move reader = some (.ok value, after))
    (next : α → Move β) : (move >>= next) reader = next value after := by
  change (move reader).bind _ = _
  rw [moved]
  rfl

theorem Move.bind_error {move : Move α} {error : Error}
    (failed : move reader = some (.error error, after)) (next : α → Move β) :
    (move >>= next) reader = some (.error error, after) := by
  change (move reader).bind _ = _
  rw [failed]
  rfl

theorem Move.take_enough (place : Reader.At reader cursor) (enough : count ≤ cursor.rest.length) :
    Move.take count reader =
      some (.ok (cursor.rest.take count), ⟨reader.data, reader.position + count⟩) := by
  change (ite _ _ _ : Move Bytes) reader = _
  rw [if_pos (place.stop_le enough), place.slice_eq enough]
  rfl

theorem Move.take_short (place : Reader.At reader cursor) (short : cursor.rest.length < count) :
    Move.take count reader = some (.error (.malformed (.truncated count)), reader) := by
  change (ite _ _ _ : Move Bytes) reader = _
  rw [if_neg (place.not_stop_le short)]
  rfl

theorem Move.remainder_eq (place : Reader.At reader cursor) :
    Move.remainder reader = some (.ok cursor.rest, ⟨reader.data, reader.data.length⟩) := by
  have rest := Checked.slice_to_end place.inside
  rw [← place.ahead] at rest
  change (liftM (slice reader.data reader.position reader.data.length) >>= _ : Move Bytes)
    reader = _
  rw [rest]
  rfl

inductive Performed (step : Step) (reader : Reader) (cursor : Cursor) : Prop where
  | taken (count : Nat) (taken : Taken) : step.wants ≤ cursor.rest.length →
      count ≤ cursor.rest.length → taken.bytes = cursor.rest.take count →
      step.move reader = some (.ok taken, ⟨reader.data, reader.position + count⟩) →
      step.read cursor = .ok (taken, ⟨cursor.rest.drop count⟩) → Performed step reader cursor
  | refused : cursor.rest.length < step.wants →
      step.move reader = some (.error (.malformed (.truncated step.wants)), reader) →
      step.read cursor = .error (.malformed (.truncated step.wants)) →
      Performed step reader cursor

theorem performed_take (place : Reader.At reader cursor) (count : Nat) :
    Performed (.take count) reader cursor := by
  by_cases enough : count ≤ cursor.rest.length
  · have full : (cursor.rest.take count).length = count := List.length_take_of_le enough
    refine .taken count (.octets (cursor.rest.take count)) enough enough rfl ?_ ?_
    · exact Move.bind_ok (Move.take_enough place enough) _
    · rw [Step.read, Cursor.take, if_pos full]
      rfl
  · have short := Nat.lt_of_not_le enough
    have cut : (cursor.rest.take count).length ≠ count := by
      rw [List.length_take]
      omega
    refine .refused short ?_ ?_
    · exact Move.bind_error (Move.take_short place short) _
    · rw [Step.read, Cursor.take, if_neg cut]
      rfl

theorem performed_octet (place : Reader.At reader cursor) : Performed .octet reader cursor := by
  cases shape : cursor.rest with
  | nil =>
      have short : cursor.rest.length < 1 := by
        rw [shape]
        exact Nat.one_pos
      refine .refused short ?_ ?_
      · exact Move.bind_error (Move.bind_error (Move.take_short place short) _) _
      · rw [Step.read, Cursor.octet, shape]
        rfl
  | cons first rest =>
      have enough : 1 ≤ cursor.rest.length := by
        rw [shape]
        exact Nat.le_add_left 1 _
      have front : cursor.rest.take 1 = [first] := by rw [shape]; rfl
      refine .taken 1 (.octet first) enough enough front.symm ?_ ?_
      · have took := Move.take_enough place enough
        rw [front] at took
        exact Move.bind_ok (Move.bind_ok took _) _
      · rw [Step.read, Cursor.octet, shape]
        rfl

theorem performed_number (place : Reader.At reader cursor) : Performed .number reader cursor := by
  by_cases enough : 4 ≤ cursor.rest.length
  · obtain ⟨first, second, third, fourth, rest, shape⟩ :
        ∃ first second third fourth rest,
          cursor.rest = first :: second :: third :: fourth :: rest := by
      match cursor.rest, enough with
      | first :: second :: third :: fourth :: rest, _ => exact ⟨_, _, _, _, _, rfl⟩
    have front : cursor.rest.take 4 = [first, second, third, fourth] := by rw [shape]; rfl
    have spelled : Bytes.ofNat 4 (Bytes.toNat [first, second, third, fourth]) =
        [first, second, third, fourth] := Bytes.ofNat_toNat [first, second, third, fourth]
    refine .taken 4 (.number (Bytes.toNat [first, second, third, fourth])) enough enough
      (spelled.trans front.symm) ?_ ?_
    · have took := Move.take_enough place enough
      rw [front] at took
      exact Move.bind_ok (Move.bind_ok took _) _
    · rw [Step.read, Cursor.number, Cursor.take, if_pos (List.length_take_of_le enough), front]
      rfl
  · have short := Nat.lt_of_not_le enough
    have cut : (cursor.rest.take 4).length ≠ 4 := by
      rw [List.length_take]
      omega
    refine .refused short ?_ ?_
    · exact Move.bind_error (Move.bind_error (Move.take_short place short) _) _
    · rw [Step.read, Cursor.number, Cursor.take, if_neg cut]
      rfl

theorem performed_remainder (place : Reader.At reader cursor) :
    Performed .remainder reader cursor := by
  have inside := place.inside
  have left := place.length_rest
  have all : reader.position + cursor.rest.length = reader.data.length := by omega
  refine .taken cursor.rest.length (.octets cursor.rest) (Nat.zero_le _) (Nat.le_refl _)
    List.take_length.symm ?_ ?_
  · rw [all]
    exact Move.bind_ok (Move.remainder_eq place) _
  · rw [List.drop_length]
    rfl

theorem performed (place : Reader.At reader cursor) (step : Step) :
    Performed step reader cursor := by
  cases step with
  | octet => exact performed_octet place
  | number => exact performed_number place
  | take count => exact performed_take place count
  | remainder => exact performed_remainder place

end One

section All

variable {reader : Reader} {cursor : Cursor}

/-- A run of the reader from here, beside that of a cursor, and what it has gained. -/
structure Walked (steps : List Step) (reader : Reader) (cursor : Cursor)
    (answers : List (Except Error Taken)) (last : Reader) (next : Cursor) : Prop where
  moved : Step.moveAll steps reader = some (answers, last)
  read : Step.readAll steps cursor = (answers, next)
  place : Reader.At last next
  data : last.data = reader.data
  gained : reader.data.take last.position = reader.data.take reader.position ++ gained answers

theorem Walked.taken {step : Step} {steps : List Step} {answers : List (Except Error Taken)}
    {last : Reader} {next : Cursor} {taken : Taken} {count : Nat}
    (place : Reader.At reader cursor) (bytes : taken.bytes = cursor.rest.take count)
    (moved : step.move reader = some (.ok taken, ⟨reader.data, reader.position + count⟩))
    (read : step.read cursor = .ok (taken, ⟨cursor.rest.drop count⟩))
    (run : Walked steps ⟨reader.data, reader.position + count⟩ ⟨cursor.rest.drop count⟩ answers last
      next) :
    Walked (step :: steps) reader cursor (.ok taken :: answers) last next where
  moved := by
    rw [Step.moveAll, moved]
    change (Step.moveAll steps _).bind _ = _
    rw [run.moved]
    rfl
  read := by
    rw [Step.readAll, read]
    dsimp only
    rw [run.read]
  place := run.place
  data := run.data
  gained := by
    have front : reader.data.take (reader.position + count) =
        reader.data.take reader.position ++ taken.bytes := by
      rw [bytes, place.ahead, List.take_add]
    rw [run.gained, front, List.append_assoc]
    rfl

theorem Walked.refused {step : Step} {steps : List Step} {answers : List (Except Error Taken)}
    {last : Reader} {next : Cursor} {error : Error}
    (moved : step.move reader = some (.error error, reader))
    (read : step.read cursor = .error error)
    (run : Walked steps reader cursor answers last next) :
    Walked (step :: steps) reader cursor (.error error :: answers) last next where
  moved := by
    rw [Step.moveAll, moved]
    change (Step.moveAll steps _).bind _ = _
    rw [run.moved]
    rfl
  read := by
    rw [Step.readAll, read]
    dsimp only
    rw [run.read]
  place := run.place
  data := run.data
  gained := run.gained

theorem exists_walked (place : Reader.At reader cursor) (steps : List Step) :
    ∃ answers last next, Walked steps reader cursor answers last next := by
  induction steps generalizing reader cursor with
  | nil => exact ⟨[], reader, cursor, rfl, rfl, place, rfl, (List.append_nil _).symm⟩
  | cons step steps ih =>
      cases performed place step with
      | taken count taken _ inside bytes moved read =>
          obtain ⟨answers, last, next, run⟩ := ih (place.onward inside)
          exact ⟨_, _, _, run.taken place bytes moved read⟩
      | refused _ moved read =>
          obtain ⟨answers, last, next, run⟩ := ih place
          exact ⟨_, _, _, run.refused moved read⟩

end All

/-- Whatever steps a reader has taken, it has not left its string, and what it has handed out is all
that lies before it. It is at the end exactly if that is everything. The next step fails exactly if
less is left than it wants, as malformed, and does not move the reader. -/
theorem handed_out_is_passed {data : Bytes} (fits : data.length < wordSize) (steps : List Step) :
    ∃ answers reader, Step.moveAll steps (Reader.start data) = some (answers, reader) ∧
      Step.readAll steps ⟨data⟩ = (answers, ⟨data.drop reader.position⟩) ∧
      reader.data = data ∧ reader.position ≤ data.length ∧
      gained answers = data.take reader.position ∧
      (reader.isEmpty = true ↔ data.take reader.position = data) ∧
      ∀ step : Step, ∃ answer after, step.move reader = some (answer, after) ∧
        ((∃ error, answer = .error error) ↔ data.length - reader.position < step.wants) ∧
        ∀ error, answer = .error error →
          error = .malformed (.truncated step.wants) ∧ after = reader := by
  obtain ⟨answers, reader, cursor, run⟩ := exists_walked (Reader.at_start fits) steps
  have same : reader.data = data := run.data
  have ahead := run.place.ahead
  have left := run.place.length_rest
  have inside := run.place.inside
  have front := run.gained
  rw [same] at ahead left inside
  refine ⟨answers, reader, run.moved, ?_, same, inside, ?_, ?_, ?_⟩
  · rw [run.read, ← ahead]
  · exact front.symm
  · rw [Reader.isEmpty, decide_eq_true_iff, same, List.take_eq_self_iff]
  · intro step
    cases performed run.place step with
    | taken count taken enough _ _ moved _ =>
        refine ⟨_, _, moved, ?_, ?_⟩
        · constructor
          · rintro ⟨error, failed⟩
            cases failed
          · intro short
            omega
        · intro error failed
          cases failed
    | refused short moved _ =>
        refine ⟨_, _, moved, ?_, ?_⟩
        · exact ⟨fun _ => left ▸ short, fun _ => ⟨_, rfl⟩⟩
        · rintro error ⟨⟩
          exact ⟨rfl, rfl⟩

/-- Two reads that want too much, one of them more than a position can hold, among three others. -/
theorem seven_octets_are_passed :
    let data : Bytes := [1, 2, 3, 4, 5, 6, 7]
    let steps : List Step := [.octet, .take (2 ^ 64 - 1), .number, .number, .remainder]
    data.length < wordSize ∧
      Step.readAll steps ⟨data⟩ =
        ([.ok (.octet 1), .error (.malformed (.truncated (2 ^ 64 - 1))), .ok (.number 0x02030405),
          .error (.malformed (.truncated 4)), .ok (.octets [6, 7])], ⟨[]⟩) ∧
      ∃ answers reader, Step.moveAll steps (Reader.start data) = some (answers, reader) ∧
        gained answers = data.take reader.position ∧
        (reader.isEmpty = true ↔ data.take reader.position = data) := by
  intro data steps
  have fits : data.length < wordSize := by decide
  obtain ⟨answers, reader, moved, -, -, -, front, ended, -⟩ := handed_out_is_passed fits steps
  exact ⟨fits, by decide, answers, reader, moved, front, ended⟩

end DeadDrop.Packet
