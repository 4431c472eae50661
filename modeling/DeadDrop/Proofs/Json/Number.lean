import DeadDrop.Json.Writer
import DeadDrop.Proofs.Json.Text

/-!
A whole number is read as it was written, if what follows it cannot belong to a number. Every
signed number of 32 bits comes back, the lowest one included.
-/

namespace DeadDrop.Json

open Text.Utf8 (encode encode_append)

namespace Number

section Digits

def digit (value : Nat) : UInt8 := UInt8.ofNat (48 + value)

def decimal (value : Nat) : Bytes := encode (Nat.toDigits 10 value)

def spelled (value : Nat) (digits : Bytes) : Nat :=
  digits.foldl (fun value octet => value * 10 + digitValue octet) value

theorem digit_facts : ∀ value < 10, isDigit (digit value) = true ∧
    digitValue (digit value) = value ∧ encode [value.digitChar] = [digit value] := by
  decide +kernel

theorem decimal_small {value : Nat} (small : value < 10) : decimal value = [digit value] := by
  rw [decimal, Nat.toDigits_of_lt_base small]
  exact (digit_facts value small).2.2

theorem decimal_large {value : Nat} (large : 10 ≤ value) :
    decimal value = decimal (value / 10) ++ [digit (value % 10)] := by
  have last := (digit_facts (value % 10) (Nat.mod_lt value (by decide))).2.2
  rw [decimal, Nat.toDigits_of_base_le (by decide) large, encode_append, last]
  rfl

theorem spelled_append (value : Nat) (front back : Bytes) :
    spelled value (front ++ back) = spelled (spelled value front) back :=
  List.foldl_append

theorem le_spelled (value : Nat) (digits : Bytes) : value ≤ spelled value digits := by
  induction digits generalizing value with
  | nil => exact Nat.le_refl value
  | cons octet others ih =>
      have step : value ≤ value * 10 + digitValue octet := by omega
      exact Nat.le_trans step (ih _)

structure Spells (value : Nat) (digits : Bytes) : Prop where
  some : digits ≠ []
  known : ∀ octet ∈ digits, isDigit octet = true
  whole : spelled 0 digits = value
  lead : 0 < value → ∃ first others, digits = first :: others ∧ first ≠ digit 0

theorem spells_decimal (value : Nat) : Spells value (decimal value) := by
  -- The last digit comes off first, so the induction is on the number and not on its digits.
  induction value using Nat.strongRecOn with
  | ind value ih =>
      by_cases small : value < 10
      · have facts := digit_facts value small
        rw [decimal_small small]
        refine ⟨List.cons_ne_nil _ _, ?_, ?_, ?_⟩
        · intro octet member
          rw [List.mem_singleton.mp member]
          exact facts.1
        · simp [spelled, facts.2.1]
        · intro positive
          refine ⟨digit value, [], rfl, ?_⟩
          intro same
          have zero : digitValue (digit value) = digitValue (digit 0) := congrArg _ same
          rw [facts.2.1] at zero
          exact absurd zero (Nat.ne_of_gt positive)
      · have facts := digit_facts (value % 10) (Nat.mod_lt value (by decide))
        have front := ih (value / 10) (by omega)
        rw [decimal_large (Nat.not_lt.mp small)]
        refine ⟨List.append_ne_nil_of_left_ne_nil front.some _, ?_, ?_, ?_⟩
        · intro octet member
          rcases List.mem_append.mp member with member | member
          · exact front.known octet member
          · rw [List.mem_singleton.mp member]
            exact facts.1
        · rw [spelled_append, front.whole]
          simp only [spelled, List.foldl_cons, List.foldl_nil, facts.2.1]
          omega
        · intro _
          obtain ⟨first, others, shape, other⟩ := front.lead (by omega)
          exact ⟨first, others ++ [digit (value % 10)], by rw [shape, List.cons_append], other⟩

end Digits

section Read

def Ends : Bytes → Prop
  | [] => True
  | octet :: _ => isDigit octet = false ∧ octet ≠ 0x2E ∧ octet ≠ 0x65 ∧ octet ≠ 0x45

variable {rest : Bytes}

theorem takeDigits_end {limit value count : Nat} (ends : Ends rest) :
    takeDigits limit value count rest = ⟨value, count, false, rest⟩ := by
  cases rest with
  | nil => rfl
  | cons octet others => simp [takeDigits, ends.1]

theorem takeDigits_digits {limit value count : Nat} {digits : Bytes}
    (known : ∀ octet ∈ digits, isDigit octet = true) (small : spelled value digits < limit)
    (ends : Ends rest) : takeDigits limit value count (digits ++ rest) =
      ⟨spelled value digits, count + digits.length, false, rest⟩ := by
  induction digits generalizing value count with
  | nil => exact takeDigits_end ends
  | cons octet others ih =>
      obtain ⟨first, later⟩ := List.forall_mem_cons.mp known
      have next : value * 10 + digitValue octet < limit :=
        Nat.lt_of_le_of_lt (le_spelled _ others) small
      rw [List.cons_append, takeDigits, if_pos first, if_pos next, ih later small,
        List.length_cons, Nat.add_right_comm]
      rfl

theorem finish_natural (value : Nat) (ends : Ends rest) :
    finish true value rest = .ok (.natural value, rest) := by
  unfold finish
  split
  · exact absurd rfl ends.2.1
  · exact absurd rfl ends.2.2.1
  · exact absurd rfl ends.2.2.2
  · rfl

theorem finish_negative {value : Nat} (positive : 0 < value) (small : value ≤ magnitudeLimit)
    (ends : Ends rest) : finish false value rest = .ok (.negative (-value), rest) := by
  have integral : ¬ (value = 0 ∨ value > magnitudeLimit) := by omega
  unfold finish
  split
  · exact absurd rfl ends.2.1
  · exact absurd rfl ends.2.2.1
  · exact absurd rfl ends.2.2.2
  · rw [if_neg Bool.false_ne_true, if_neg integral]

theorem read_lead (positive : Bool) {first : UInt8} (known : isDigit first = true)
    (other : first ≠ digit 0) (bytes : Bytes) :
    read positive (first :: bytes) =
      let taken := takeDigits wordLimit (digitValue first) 0 bytes
      if taken.full then
        (readLong positive taken.value taken.rest).map fun (value, rest) => (.float value, rest)
      else finish positive taken.value taken.rest := by
  unfold read
  split
  · next nothing => cases nothing
  · next zero => exact absurd (List.cons.inj zero).1 other
  · next same =>
      obtain ⟨rfl, rfl⟩ := List.cons.inj same
      rw [if_pos known]

theorem read_decimal (positive : Bool) {value : Nat} (small : value < wordLimit)
    (ends : Ends rest) : read positive (decimal value ++ rest) = finish positive value rest := by
  obtain ⟨_, known, whole, lead⟩ := spells_decimal value
  rcases Nat.eq_zero_or_pos value with rfl | some
  · have shape : decimal 0 = [0x30] := by decide
    rw [shape, List.singleton_append]
    cases rest with
    | nil => rfl
    | cons octet others => simp [read, ends.1]
  · obtain ⟨first, others, shape, other⟩ := lead some
    rw [shape] at known whole ⊢
    obtain ⟨isFirst, areOthers⟩ := List.forall_mem_cons.mp known
    have onward : spelled (digitValue first) others = value := by
      rw [← whole]
      simp [spelled]
    have below : spelled (digitValue first) others < wordLimit := by
      rw [onward]
      exact small
    have taken : takeDigits wordLimit (digitValue first) 0 (others ++ rest) =
        ⟨spelled (digitValue first) others, 0 + others.length, false, rest⟩ :=
      takeDigits_digits areOthers below ends
    rw [List.cons_append, read_lead positive isFirst other, taken, onward]
    rfl

end Read

end Number

section Int32

variable {rest : Bytes}

theorem within_int32 (value : Int32) :
    -0x80000000 ≤ value.toInt ∧ value.toInt < 0x80000000 :=
  ⟨value.le_toInt, value.toInt_lt⟩

theorem toInt32_natural {value : Int32} {number : Nat} (same : (number : Int) = value.toInt) :
    toInt32 (.natural number) rest = .ok (value, rest) := by
  have within := within_int32 value
  rw [← same] at within
  unfold toInt32
  dsimp only
  rw [if_pos within, same, Int32.ofInt_toInt]

theorem toInt32_negative (value : Int32) :
    toInt32 (.negative value.toInt) rest = .ok (value, rest) := by
  unfold toInt32
  dsimp only
  rw [if_pos (within_int32 value), Int32.ofInt_toInt]

theorem encode_writeInt_natural (value : Nat) :
    encode (writeInt value) = Number.decimal value := by
  have text : toString (value : Int) = Nat.repr value := rfl
  rw [writeInt, text, Nat.repr_eq_ofList_toDigits, String.toList_ofList]
  rfl

theorem encode_writeInt_negative (value : Nat) :
    encode (writeInt (Int.negSucc value)) = minus :: Number.decimal (value + 1) := by
  have text : toString (Int.negSucc value) = "-" ++ Nat.repr (value + 1) := rfl
  have digits : (String.ofList (Nat.toDigits 10 (value + 1))).toList =
      Nat.toDigits 10 (value + 1) := String.toList_ofList
  rw [writeInt, text, Nat.repr_eq_ofList_toDigits, String.toList_append, digits]
  rfl

theorem not_blank_of_isDigit {octet : UInt8} (known : Number.isDigit octet = true) :
    isBlank octet = false ∧ octet ≠ minus := by
  have apart (other : UInt8) (foreign : Number.isDigit other = false) : octet ≠ other := by
    rintro rfl
    rw [foreign] at known
    cases known
  have blanks : octet ≠ 0x20 ∧ octet ≠ 0x0A ∧ octet ≠ 0x09 ∧ octet ≠ 0x0D :=
    ⟨apart _ (by decide), apart _ (by decide), apart _ (by decide), apart _ (by decide)⟩
  refine ⟨?_, apart _ (by decide)⟩
  simp [isBlank, blanks]

theorem readInt32_writeInt (value : Int32) (ends : Number.Ends rest) :
    readInt32 (encode (writeInt value.toInt) ++ rest) = .ok (value, rest) := by
  have within := within_int32 value
  have limit : Number.wordLimit = 2 ^ 64 := rfl
  have magnitude : Number.magnitudeLimit = 2 ^ 63 := rfl
  cases shape : value.toInt with
  | ofNat number =>
      rw [shape, Int.ofNat_eq_natCast] at within
      have read := Number.read_decimal true (by omega : number < Number.wordLimit) ends
      rw [Number.finish_natural number ends] at read
      have known := (Number.spells_decimal number).known
      obtain ⟨first, others, digits⟩ :=
        List.exists_cons_of_ne_nil (Number.spells_decimal number).some
      rw [digits] at known read
      have isFirst := known first List.mem_cons_self
      obtain ⟨shown, notMinus⟩ := not_blank_of_isDigit isFirst
      have skipped : skipBlanks (first :: (others ++ rest)) = first :: (others ++ rest) := by
        simp [skipBlanks, shown]
      rw [Int.ofNat_eq_natCast, encode_writeInt_natural, digits, List.cons_append, readInt32,
        skipped]
      rw [List.cons_append] at read
      simp only [if_neg notMinus, if_pos isFirst, read, bind, Except.bind]
      exact toInt32_natural shape.symm
  | negSucc number =>
      rw [shape] at within
      have read := Number.read_decimal false (by omega : number + 1 < Number.wordLimit) ends
      rw [Number.finish_negative (Nat.succ_pos number) (by omega) ends] at read
      have skipped (bytes : Bytes) : skipBlanks (minus :: bytes) = minus :: bytes := rfl
      rw [encode_writeInt_negative, List.cons_append, readInt32, skipped]
      simp only [if_true, read, bind, Except.bind]
      have same : -((number + 1 : Nat) : Int) = value.toInt := shape.symm
      rw [same]
      exact toInt32_negative value

end Int32

end DeadDrop.Json
