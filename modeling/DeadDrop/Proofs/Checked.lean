import DeadDrop.Bytes
import DeadDrop.Envelope.Error

/-!
Operations that have a range. A position may lie outside a string, a difference below zero, a shift
may be wider than a word: an operation gives nothing there. A computation built from them gives
nothing as soon as one of them does, and otherwise an answer or an error. It tracks a computation
without ranges if it always gives something, the same error or a related answer.
-/

namespace DeadDrop

open Envelope (Error)

/-- Nothing, if an operation left its range; an answer or an error otherwise. -/
abbrev Checked (α : Type) : Type := ExceptT Error Option α

namespace Checked

section Operations

def wordBits : Nat := 64

/-- Lengths and positions are numbers of one machine word. -/
def wordSize : Nat := UInt64.size

def index (octets : Bytes) (position : Nat) : Option UInt8 := octets[position]?

def slice (octets : Bytes) (start stop : Nat) : Option Bytes :=
  if start ≤ stop ∧ stop ≤ octets.length then some ((octets.take stop).drop start) else none

def splitAt (octets : Bytes) (position : Nat) : Option (Bytes × Bytes) :=
  if position ≤ octets.length then some (octets.take position, octets.drop position) else none

def minus (whole part : Nat) : Option Nat :=
  if part ≤ whole then some (whole - part) else none

def divide (value divisor : Nat) : Option Nat :=
  if divisor = 0 then none else some (value / divisor)

/-- What is shifted out of the word is lost; a shift by a word or more has no meaning. -/
def shift (value places : Nat) : Option Nat :=
  if places < wordBits then some ((value <<< places) % wordSize) else none

variable {octets : Bytes} {start stop position whole part divisor value places : Nat}

theorem slice_of_le (ordered : start ≤ stop) (inside : stop ≤ octets.length) :
    slice octets start stop = some ((octets.take stop).drop start) :=
  if_pos ⟨ordered, inside⟩

theorem slice_to_end (inside : start ≤ octets.length) :
    slice octets start octets.length = some (octets.drop start) := by
  rw [slice_of_le inside (Nat.le_refl _), List.take_length]

theorem splitAt_of_le (inside : position ≤ octets.length) :
    splitAt octets position = some (octets.take position, octets.drop position) :=
  if_pos inside

theorem minus_of_le (smaller : part ≤ whole) : minus whole part = some (whole - part) :=
  if_pos smaller

theorem minus_lt {left : Nat} (taken : minus whole part = some left) (filled : 0 < part) :
    left < whole := by
  unfold minus at taken
  split at taken
  · cases taken
    omega
  · cases taken

theorem divide_of_pos (positive : 0 < divisor) : divide value divisor = some (value / divisor) :=
  if_neg (Nat.ne_of_gt positive)

theorem shift_of_lt (few : places < wordBits) (small : value <<< places < wordSize) :
    shift value places = some (value <<< places) := by
  rw [shift, if_pos few, Nat.mod_eq_of_lt small]

end Operations

section Tracking

variable {α β γ δ : Type} {related : α → β → Prop} {kept : γ → δ → Prop}

inductive Tracks (related : α → β → Prop) : Checked α → Except Error β → Prop where
  | failed (error : Error) : Tracks related (throw error) (.error error)
  | done {value : α} {plain : β} : related value plain → Tracks related (pure value) (.ok plain)

theorem Tracks.bind {checked : Checked α} {plain : Except Error β} {next : α → Checked γ}
    {after : β → Except Error δ} (first : Tracks related checked plain)
    (rest : ∀ value result, related value result → Tracks kept (next value) (after result)) :
    Tracks kept (checked >>= next) (plain >>= after) := by
  cases first with
  | failed error => exact .failed error
  | done same => exact rest _ _ same

theorem Tracks.ite {condition : Prop} [Decidable condition] {yes no : Checked α}
    {yes' no' : Except Error β} (holds : condition → Tracks related yes yes')
    (fails : ¬ condition → Tracks related no no') :
    Tracks related (if condition then yes else no) (if condition then yes' else no') := by
  split
  · next yes => exact holds yes
  · next no => exact fails no

/-- What is known of an answer goes along with it. -/
theorem Tracks.knowing {checked : Checked α} {plain : Except Error β}
    (tracks : Tracks related checked plain) (fact : β → Prop)
    (known : ∀ result, plain = .ok result → fact result) :
    Tracks (fun value result => related value result ∧ fact result) checked plain := by
  cases tracks with
  | failed error => exact .failed error
  | done same => exact .done ⟨same, known _ rfl⟩

theorem Tracks.run_eq {checked : Checked α} {plain : Except Error α}
    (tracks : Tracks Eq checked plain) : checked.run = some plain := by
  cases tracks with
  | failed error => rfl
  | done same =>
      cases same
      rfl

theorem tracks_plain (plain : Except Error α) : Tracks Eq (liftM plain : Checked α) plain := by
  cases plain with
  | error error => exact .failed error
  | ok value => exact .done rfl

@[simp] theorem some_bind (value : α) (next : α → Checked β) :
    (liftM (some value) : Checked α) >>= next = next value := rfl

end Tracking

end Checked

end DeadDrop
