import DeadDrop.Armor.Checksum
import DeadDrop.Proofs.Bits
import Mathlib.Data.List.Induction
import Mathlib.Data.Nat.Bitwise
import Mathlib.Logic.Function.Iterate

/-!
What the check notices. Bits are the coefficients of a polynomial, most significant first, and the
register is a remainder by the generator: a shift multiplies by the variable. That is linear, and
since the generator has a constant term nothing but zero is shifted to zero. So two strings with the
same check have the same remainder, what they have in common cancels, and what is left of them is
too short to have been reduced.
-/

namespace DeadDrop

namespace Armor.Checksum

section Shift

/-- The bit that the next shift carries out of the register. -/
def top (register : UInt32) : Bool := register.toNat.testBit 23

def Bounded (register : UInt32) : Prop := register.toNat < 2 ^ 24

instance (register : UInt32) : Decidable (Bounded register) :=
  inferInstanceAs (Decidable (_ < _))

theorem shift_eq (register : UInt32) :
    shift register = register <<< 1 ^^^ if top register then generator else 0 := by
  have carried : (register <<< 1 &&& 0x1000000 : UInt32).toNat = (top register).toNat * 2 ^ 24 := by
    rw [UInt32.toNat_and, show (0x1000000 : UInt32).toNat = 2 ^ 24 from rfl, Nat.and_two_pow,
      UInt32.toNat_shiftLeft, Nat.testBit_mod_two_pow, Nat.testBit_shiftLeft]
    rfl
  unfold shift
  cases carry : top register with
  | true =>
      rw [carry] at carried
      rw [if_neg, if_pos rfl]
      intro zero
      rw [zero] at carried
      cases carried
  | false =>
      rw [carry] at carried
      rw [if_pos, if_neg Bool.false_ne_true, UInt32.xor_zero]
      exact UInt32.toNat_inj.mp (carried.trans (Nat.zero_mul _))

theorem top_xor (left right : UInt32) : top (left ^^^ right) = (top left ^^ top right) := by
  rw [top, UInt32.toNat_xor, Nat.testBit_xor, top, top]

theorem shift_xor (left right : UInt32) :
    shift (left ^^^ right) = shift left ^^^ shift right := by
  have generators : (if top (left ^^^ right) then generator else 0) =
      (if top left then generator else 0) ^^^ if top right then generator else 0 := by
    rw [top_xor]
    cases top left <;> cases top right <;> rfl
  rw [shift_eq, shift_eq, shift_eq, UInt32.shiftLeft_xor, generators]
  ac_rfl

theorem bounded_xor {left right : UInt32} (first : Bounded left) (second : Bounded right) :
    Bounded (left ^^^ right) := by
  rw [Bounded, UInt32.toNat_xor]
  exact Nat.xor_lt_two_pow first second

theorem toNat_doubled {register : UInt32} (bounded : Bounded register) :
    (register <<< 1).toNat = 2 * register.toNat := by
  have fits : 2 * register.toNat < 2 ^ 32 := by
    rw [Bounded] at bounded
    omega
  rw [UInt32.toNat_shiftLeft, show (1 : UInt32).toNat % 32 = 1 from rfl, Nat.shiftLeft_eq,
    Nat.pow_one, Nat.mul_comm, Nat.mod_eq_of_lt fits]

theorem top_eq_true_iff {register : UInt32} (bounded : Bounded register) :
    top register = true ↔ 2 ^ 23 ≤ register.toNat := by
  rw [Bounded] at bounded
  rw [top, Nat.testBit_eq_decide_div_mod_eq, decide_eq_true_eq]
  omega

theorem shift_of_small {register : UInt32} (small : register.toNat < 2 ^ 23) :
    shift register = register <<< 1 := by
  have carry : top register = false := Nat.testBit_lt_two_pow small
  rw [shift_eq, carry, if_neg Bool.false_ne_true, UInt32.xor_zero]

theorem toNat_shift {register : UInt32} (small : register.toNat < 2 ^ 23) :
    (shift register).toNat = 2 * register.toNat := by
  rw [shift_of_small small, toNat_doubled (Nat.lt_trans small (by decide))]

theorem bounded_shift {register : UInt32} (bounded : Bounded register) :
    Bounded (shift register) := by
  have width : register.toNat < 2 ^ 24 := bounded
  rw [Bounded]
  by_cases small : register.toNat < 2 ^ 23
  · rw [toNat_shift small]
    omega
  · have carry := (top_eq_true_iff bounded).mpr (Nat.not_lt.mp small)
    have cleared : (2 * register.toNat ^^^ generator.toNat) >>> 24 = 0 := by
      rw [Nat.shiftRight_xor_distrib, Nat.shiftRight_eq_div_pow,
        show 2 * register.toNat / 2 ^ 24 = 1 by omega]
      rfl
    rw [Nat.shiftRight_eq_div_pow] at cleared
    rw [shift_eq, if_pos carry, UInt32.toNat_xor, toNat_doubled bounded]
    omega

/-- The generator is odd, and what is shifted to the left is even. -/
theorem eq_zero_of_shift {register : UInt32} (bounded : Bounded register)
    (zero : shift register = 0) : register = 0 := by
  have doubled := toNat_doubled bounded
  rw [shift_eq] at zero
  split at zero
  · rw [UInt32.xor_eq_zero_iff] at zero
    rw [zero, show generator.toNat = 25578747 from rfl] at doubled
    omega
  · rw [UInt32.xor_zero] at zero
    rw [zero, UInt32.toNat_zero] at doubled
    exact UInt32.toNat_inj.mp (by rw [UInt32.toNat_zero]; omega)

theorem shift_injective {left right : UInt32} (first : Bounded left) (second : Bounded right)
    (same : shift left = shift right) : left = right := by
  have zero : shift (left ^^^ right) = 0 := by
    rw [shift_xor, same, UInt32.xor_self]
  exact UInt32.xor_eq_zero_iff.mp (eq_zero_of_shift (bounded_xor first second) zero)

end Shift

section Shifts

theorem shifts_xor (count : Nat) (left right : UInt32) :
    shift^[count] (left ^^^ right) = shift^[count] left ^^^ shift^[count] right := by
  induction count generalizing left right with
  | zero => rfl
  | succ count ih =>
      rw [Function.iterate_succ_apply, shift_xor, ih]
      rfl

theorem shifts_zero (count : Nat) : shift^[count] 0 = 0 :=
  Function.iterate_fixed (by decide) count

theorem bounded_shifts {register : UInt32} (bounded : Bounded register) (count : Nat) :
    Bounded (shift^[count] register) := by
  induction count with
  | zero => exact bounded
  | succ count ih =>
      rw [Function.iterate_succ_apply']
      exact bounded_shift ih

theorem shifts_injective {left right : UInt32} (first : Bounded left) (second : Bounded right)
    {count : Nat} (same : shift^[count] left = shift^[count] right) : left = right := by
  induction count generalizing left right with
  | zero => exact same
  | succ count ih =>
      have once := ih (bounded_shift first) (bounded_shift second) same
      exact shift_injective first second once

end Shifts

section Remainders

def push (register : UInt32) (bit : Bool) : UInt32 := shift register ^^^ bit.toUInt32

def remainder (register : UInt32) (bits : List Bool) : UInt32 := bits.foldl push register

theorem remainder_append (register : UInt32) (front back : List Bool) :
    remainder register (front ++ back) = remainder (remainder register front) back :=
  List.foldl_append

theorem bounded_remainder {register : UInt32} (bounded : Bounded register) (bits : List Bool) :
    Bounded (remainder register bits) := by
  induction bits generalizing register with
  | nil => exact bounded
  | cons bit rest ih =>
      have single : Bounded bit.toUInt32 := by cases bit <;> decide
      exact ih (bounded_xor (bounded_shift bounded) single)

theorem remainder_eq (register : UInt32) (bits : List Bool) :
    remainder register bits = shift^[bits.length] register ^^^ remainder 0 bits := by
  induction bits generalizing register with
  | nil => exact (UInt32.xor_zero).symm
  | cons bit rest ih =>
      have step (register : UInt32) : remainder register (bit :: rest) =
          shift^[rest.length] (push register bit) ^^^ remainder 0 rest := ih _
      rw [step register, step 0, push, push, show shift 0 = 0 by decide, UInt32.zero_xor,
        shifts_xor, UInt32.xor_assoc]
      rfl

theorem toNat_push {register : UInt32} (small : register.toNat < 2 ^ 23) (bit : Bool) :
    (push register bit).toNat = 2 * register.toNat + bit.toNat := by
  rw [push, UInt32.toNat_xor, toNat_shift small]
  cases bit with
  | false => exact Nat.xor_zero _
  | true => exact Nat.xor_one_of_even (even_two_mul _)

theorem toNat_remainder_lt {bits : List Bool} (short : bits.length ≤ 24) :
    (remainder 0 bits).toNat < 2 ^ bits.length := by
  induction bits using List.reverseRecOn with
  | nil => decide
  | append_singleton front bit ih =>
      rw [List.length_append, List.length_singleton] at short
      have below := ih (by omega)
      have small : (remainder 0 front).toNat < 2 ^ 23 :=
        Nat.lt_of_lt_of_le below (Nat.pow_le_pow_right (by decide) (by omega))
      have last := bit.toNat_lt
      rw [remainder_append, List.length_append, List.length_singleton, Nat.pow_succ]
      show (push (remainder 0 front) bit).toNat < _
      rw [toNat_push small]
      omega

-- The last bit of a number, and the number without it, are those of its digits.
theorem remainder_injective {left right : List Bool} (size : left.length = right.length)
    (short : left.length ≤ 24) (same : remainder 0 left = remainder 0 right) : left = right := by
  induction left using List.reverseRecOn generalizing right with
  | nil => exact (List.eq_nil_of_length_eq_zero size.symm).symm
  | append_singleton front bit ih =>
      cases right using List.reverseRecOn with
      | nil => simp at size
      | append_singleton other last =>
          simp only [List.length_append, List.length_singleton, Nat.add_right_cancel_iff]
            at size short
          have small {bits : List Bool} (fits : bits.length ≤ 23) :
              (remainder 0 bits).toNat < 2 ^ 23 :=
            Nat.lt_of_lt_of_le (toNat_remainder_lt (Nat.le_succ_of_le fits))
              (Nat.pow_le_pow_right (by decide) fits)
          have numbers : (push (remainder 0 front) bit).toNat =
              (push (remainder 0 other) last).toNat := by
            rw [remainder_append, remainder_append] at same
            exact congrArg UInt32.toNat same
          rw [toNat_push (small (by omega)), toNat_push (small (by omega))] at numbers
          have digit := bit.toNat_lt
          have digit' := last.toNat_lt
          have fronts : remainder 0 front = remainder 0 other := UInt32.toNat_inj.mp (by omega)
          have digits : bit = last := by
            cases bit <;> cases last <;> first | rfl | (simp at numbers; omega)
          rw [ih size (by omega) fronts, digits]

end Remainders

section Octets

theorem remainder_octetBits (octet : UInt8) : remainder 0 (octetBits octet) = octet.toUInt32 := by
  have all : ∀ value < 256, remainder 0 (octetBits (UInt8.ofNat value)) =
      (UInt8.ofNat value).toUInt32 := by decide +kernel
  have one := all octet.toNat octet.toNat_lt
  rwa [UInt8.ofNat_toNat] at one

theorem shifts_octet (octet : UInt8) :
    shift^[8] (octet.toUInt32 <<< 16) = shift^[24] (remainder 0 (octetBits octet)) := by
  have all : ∀ value < 256, shift^[8] ((UInt8.ofNat value).toUInt32 <<< 16) =
      shift^[24] (UInt8.ofNat value).toUInt32 := by decide +kernel
  have one := all octet.toNat octet.toNat_lt
  rw [UInt8.ofNat_toNat] at one
  rw [one, remainder_octetBits]

theorem register_absorb (checksum : Checksum) (octet : UInt8) :
    (checksum.absorb octet).register =
      shift^[8] checksum.register ^^^ shift^[24] (remainder 0 (octetBits octet)) := by
  rw [← shifts_octet, ← shifts_xor]
  rfl

theorem bounded_absorb {checksum : Checksum} (bounded : Bounded checksum.register)
    (octet : UInt8) : Bounded (checksum.absorb octet).register := by
  have none : Bounded 0 := by decide
  rw [register_absorb]
  exact bounded_xor (bounded_shifts bounded 8)
    (bounded_shifts (bounded_remainder none (octetBits octet)) 24)

theorem bounded_update {checksum : Checksum} (bounded : Bounded checksum.register)
    (bytes : Bytes) : Bounded (checksum.update bytes).register := by
  induction bytes generalizing checksum with
  | nil => exact bounded
  | cons octet rest ih => exact ih (bounded_absorb bounded octet)

/-- The register is shifted once for each bit, and the remainder of the bits is added to it, shifted
by the width of the register. -/
theorem register_update (checksum : Checksum) (bytes : Bytes) :
    (checksum.update bytes).register =
      shift^[(Bytes.bits bytes).length] checksum.register ^^^
        shift^[24] (remainder 0 (Bytes.bits bytes)) := by
  induction bytes generalizing checksum with
  | nil =>
      rw [show remainder 0 (Bytes.bits []) = 0 from rfl, shifts_zero, UInt32.xor_zero]
      rfl
  | cons octet rest ih =>
      have step : (checksum.update (octet :: rest)).register =
          shift^[(Bytes.bits rest).length] (checksum.absorb octet).register ^^^
            shift^[24] (remainder 0 (Bytes.bits rest)) := ih _
      have swapped := (Function.Commute.iterate_iterate_self shift (Bytes.bits rest).length 24).eq
      rw [step, register_absorb, Bytes.bits_cons, remainder_append,
        remainder_eq (remainder 0 (octetBits octet)), shifts_xor, shifts_xor, swapped,
        UInt32.xor_assoc, ← Function.iterate_add_apply, List.length_append, length_octetBits,
        Nat.add_comm]

end Octets

section Bursts

/-- Octets that are changed within so many bits in a row. -/
structure Burst (width : Nat) (left right : Bytes) : Prop where
  differ : left ≠ right
  size : left.length = right.length
  within : ∃ start, ∀ index, index < start ∨ start + width ≤ index →
    (Bytes.bits left)[index]? = (Bytes.bits right)[index]?

theorem burst_between_octets {width : Nat} {one two : Bytes} (front : Bytes)
    (differ : one ≠ two) (size : one.length = two.length) (short : 8 * one.length ≤ width)
    (back : Bytes) : Burst width (front ++ one ++ back) (front ++ two ++ back) := by
  refine ⟨?_, ?_, 8 * front.length, ?_⟩
  · intro same
    exact differ (List.append_cancel_left (List.append_cancel_right same))
  · simp [size]
  · intro index outside
    have middle : (Bytes.bits one).length = (Bytes.bits two).length := by
      rw [Bytes.length_bits, Bytes.length_bits, size]
    rw [← Bytes.length_bits] at outside short
    simp only [Bytes.bits_append, List.append_assoc]
    rcases outside with before | behind
    · rw [List.getElem?_append_left before, List.getElem?_append_left before]
    · have past : (Bytes.bits front).length ≤ index := by omega
      have past' : (Bytes.bits one).length ≤ index - (Bytes.bits front).length := by omega
      rw [List.getElem?_append_right past, List.getElem?_append_right past,
        List.getElem?_append_right past', List.getElem?_append_right (middle ▸ past'), middle]

theorem burst_between {width : Nat} {left right : Bytes} (burst : Burst width left right) :
    ∃ front one two back, Bytes.bits left = front ++ (one ++ back) ∧
      Bytes.bits right = front ++ (two ++ back) ∧ one.length = two.length ∧
      one.length ≤ width ∧ one ≠ two := by
  obtain ⟨start, alike⟩ := burst.within
  have size : (Bytes.bits left).length = (Bytes.bits right).length := by
    rw [Bytes.length_bits, Bytes.length_bits, burst.size]
  have split (bits : List Bool) :
      bits = bits.take start ++ ((bits.drop start).take width ++ (bits.drop start).drop width) := by
    rw [List.take_append_drop, List.take_append_drop]
  have fronts : (Bytes.bits right).take start = (Bytes.bits left).take start := by
    apply List.ext_getElem?
    intro index
    rw [List.getElem?_take, List.getElem?_take]
    split
    · next inside => exact (alike index (.inl inside)).symm
    · rfl
  have backs : ((Bytes.bits right).drop start).drop width =
      ((Bytes.bits left).drop start).drop width := by
    apply List.ext_getElem?
    intro index
    rw [List.drop_drop, List.drop_drop, List.getElem?_drop, List.getElem?_drop]
    exact (alike _ (.inr (Nat.le_add_right _ _))).symm
  refine ⟨_, _, ((Bytes.bits right).drop start).take width, _, split (Bytes.bits left), ?_, ?_,
    List.length_take_le _ _, ?_⟩
  · rw [← fronts, ← backs]
    exact split (Bytes.bits right)
  · rw [List.length_take, List.length_take, List.length_drop, List.length_drop, size]
  · intro same
    apply burst.differ
    apply Bytes.bits_injective burst.size
    rw [split (Bytes.bits left), split (Bytes.bits right), fronts, backs, same]

theorem register_ne_of_burst (checksum : Checksum) {left right : Bytes}
    (burst : Burst 24 left right) :
    (checksum.update left).register ≠ (checksum.update right).register := by
  obtain ⟨front, one, two, back, leftBits, rightBits, size, short, differ⟩ := burst_between burst
  have none : Bounded 0 := by decide
  have bits : (Bytes.bits left).length = (Bytes.bits right).length := by
    rw [Bytes.length_bits, Bytes.length_bits, burst.size]
  intro same
  rw [register_update, register_update, bits, UInt32.xor_right_inj] at same
  have remainders := shifts_injective (bounded_remainder none _) (bounded_remainder none _) same
  rw [leftBits, rightBits, remainder_append, remainder_append, remainder_append, remainder_append,
    remainder_eq (remainder _ one), remainder_eq (remainder _ two),
    UInt32.xor_left_inj] at remainders
  have cut := bounded_remainder none front
  have changed := shifts_injective (bounded_remainder cut one) (bounded_remainder cut two)
    remainders
  rw [remainder_eq _ one, remainder_eq _ two, size, UInt32.xor_right_inj] at changed
  exact differ (remainder_injective size short changed)

theorem value_eq {checksum : Checksum} (bounded : Bounded checksum.register) :
    checksum.value = checksum.register := by
  apply UInt32.toNat_inj.mp
  rw [value, UInt32.toNat_and, show (0xFFFFFF : UInt32).toNat = 2 ^ 24 - 1 from rfl,
    Nat.and_two_pow_sub_one_eq_mod, Nat.mod_eq_of_lt bounded]

theorem bounded_ofBytes (bytes : Bytes) : Bounded (ofBytes bytes).register :=
  bounded_update (by decide) bytes

theorem value_ne_of_burst {left right : Bytes} (burst : Burst 24 left right) :
    (ofBytes left).value ≠ (ofBytes right).value := by
  rw [value_eq (bounded_ofBytes left), value_eq (bounded_ofBytes right)]
  exact register_ne_of_burst initial burst

end Bursts

end Armor.Checksum

end DeadDrop
