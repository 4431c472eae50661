import DeadDrop.Proofs.Decimal.Binary
import DeadDrop.Proofs.Store.Faults
import Mathlib.Tactic.NormNum

/-!
Draws on a machine. Words wrap around and quotients are rounded, but the modulus divides the size
of a word, and a state has so few digits that its quotient by the modulus is exact. What is drawn
lies below a rate there exactly if it does so as a fraction.
-/

namespace DeadDrop.Store.Faulty

open Decimal
open Float.Model (Format UnpackedFloat)

variable {x : Float} {rate : Rat}

section Rates

inductive Rated (x : Float) : Rat → Prop
  | never {sign} (stored : x.toModel.unpack = .zero sign) : Rated x 0
  | share {mantissa : Nat} {exponent : Int} {positive : 0 < mantissa}
      (stored : x.toModel.unpack = .finite .positive mantissa exponent positive)
      (canonical : Canonical mantissa exponent) (most : (mantissa : Rat) * 2 ^ exponent ≤ 1) :
      Rated x (mantissa * 2 ^ exponent)

theorem canonical_one : Canonical hiddenBit (-52) := ⟨by decide, by decide, .inl (le_refl _)⟩

theorem value_one : (hiddenBit : Rat) * 2 ^ (-52 : Int) = 1 := by norm_num [hiddenBit]

theorem rated (given : rateOf x = .ok rate) : Rated x rate := by
  rw [rateOf] at given
  split at given
  · next range =>
      cases given
      obtain ⟨least, most⟩ := range
      rw [le_iff_unpack, unpack_zero] at least
      rw [le_iff_unpack, unpack_one] at most
      have reads := reads_unpack x
      generalize stored : x.toModel.unpack = number at reads least most
      -- The range leaves out what is not a number, what is infinite and what is negative.
      cases reads with
      | zero found =>
          have none : exactRate x = 0 := by simp [exactRate, found]
          rw [none]
          exact .never stored
      | finite value found canonical positive =>
          cases negative : signOf x with
          | true =>
              simp only [signed, negative, if_true] at least
              cases least
          | false =>
              have size : exactRate x = value.mantissa * 2 ^ value.exponent := by
                simp [exactRate, found, negative]
              simp only [signed, negative, Bool.false_eq_true, if_false] at stored most
              rw [le_finite_iff canonical canonical_one, value_one] at most
              rw [size]
              exact .share stored canonical most
      | infinite found =>
          cases negative : signOf x with
          | true =>
              simp only [signed, negative, if_true] at least
              cases least
          | false =>
              simp only [signed, negative, Bool.false_eq_true, if_false] at most
              cases most
      | undefined found => cases least
  · cases given

theorem Rated.bounds (given : Rated x rate) : 0 ≤ rate ∧ rate ≤ 1 := by
  cases given with
  | never stored => exact ⟨le_refl 0, zero_le_one⟩
  | share stored canonical most =>
      exact ⟨mul_nonneg (Nat.cast_nonneg _) (zpow_pos two_pos _).le, most⟩

end Rates

section Quotients

variable {state : UInt64}

def unit (state : UInt64) : Float := state.toFloat / (4294967296 : UInt64).toFloat

theorem unpack_modulus : (4294967296 : UInt64).toFloat.toModel.unpack =
    .finite .positive hiddenBit ((32 : Nat) - 52) (by decide) := by
  have bits : (4294967296 : UInt64).toFloat.toModel.toBits = 0x41F0000000000000 := by
    decide +kernel
  rw [Float.Model.unpack, bits]
  rfl

theorem unpack_unit_zero : (unit 0).toModel.unpack = .zero .positive := by
  have bits : (unit 0).toModel.toBits = 0 := by decide +kernel
  rw [Float.Model.unpack, bits]
  rfl

theorem value_quotient (number : Nat) {bits : Nat} (few : bits ≤ 52) :
    ((number * 2 ^ (52 - bits) : Nat) : Rat) * 2 ^ ((bits : Int) - 52 - (32 : Nat)) =
      number / modulus := by
  have size : (modulus : Rat) = 2 ^ (32 : Int) := by norm_num [modulus, UInt32.size]
  have place : ((52 - bits : Nat) : Int) + (bits - 52 - (32 : Nat)) = -32 := by omega
  rw [Nat.cast_mul, Nat.cast_pow, Nat.cast_ofNat, mul_assoc, ← zpow_natCast,
    ← zpow_add₀ two_ne_zero, place, size, zpow_neg, div_eq_mul_inv]

theorem unit_exact (some : 0 < state.toNat) (small : state.toNat < modulus) :
    ∃ mantissa exponent, ∃ positive,
      (unit state).toModel.unpack = .finite .positive mantissa exponent positive ∧
        Canonical mantissa exponent ∧
        (mantissa : Rat) * 2 ^ exponent = state.toNat / modulus := by
  have narrow : state.toNat < 2 ^ 53 := small.trans (by decide)
  have normal := normal_whole some narrow
  have few : state.toNat.log2 < 53 := (Nat.log2_lt some.ne').mpr narrow
  have least : (-1073 : Int) ≤ (state.toNat.log2 - 52 : Int) - (32 : Nat) := by omega
  refine ⟨_, _, normal.positive, ?_, (normal.lower 32 least).canonical,
    value_quotient state.toNat (Nat.le_of_lt_succ few)⟩
  change (Float.Model.pack (UnpackedFloat.div Format.binary64 state.toFloat.toModel.unpack
    (4294967296 : UInt64).toFloat.toModel.unpack)).unpack = _
  rw [unpack_toFloat some narrow, unpack_modulus, div_two_pow normal 32 least,
    (normal.lower 32 least).unpack_pack]

/-- A state that is drawn fails a call on the machine exactly if it does so as a fraction. -/
theorem unit_lt_iff (given : rateOf x = .ok rate) (small : state.toNat < modulus) :
    unit state < x ↔ fails rate state.toNat = true := by
  rw [fails_eq, decide_eq_true_iff, lt_iff_unpack]
  -- Zeros are not stored as the other numbers are.
  rcases Nat.eq_zero_or_pos state.toNat with none | some
  · obtain rfl : state = 0 := UInt64.toNat_inj.mp none
    rw [unpack_unit_zero]
    cases rated given with
    | never stored =>
        rw [stored]
        simp [UnpackedFloat.lt, UnpackedFloat.compare]
    | @share mantissa exponent positive stored canonical most =>
        have above : (0 : Rat) < mantissa * 2 ^ exponent :=
          mul_pos (Nat.cast_pos.mpr positive) (zpow_pos two_pos _)
        rw [stored]
        simp [UnpackedFloat.lt, UnpackedFloat.compare, above]
  · obtain ⟨mantissa, exponent, positive, drawn, canonical, value⟩ := unit_exact some small
    rw [drawn, ← value]
    cases rated given with
    | never stored =>
        have above : (0 : Rat) ≤ mantissa * 2 ^ exponent :=
          mul_nonneg (Nat.cast_nonneg _) (zpow_pos two_pos _).le
        rw [stored]
        simp [UnpackedFloat.lt, UnpackedFloat.compare, above]
    | share stored canonicalRate most =>
        rw [stored, lt_finite_iff canonical canonicalRate]

end Quotients

section Rolls

/-- The generator on a word. -/
def nextWord (state : UInt64) : UInt64 := (1664525 * state + 1013904223) % 4294967296

theorem toNat_nextWord (state : UInt64) : (nextWord state).toNat = next state.toNat := by
  simp only [nextWord, next, modulus, UInt64.toNat_mod, UInt64.toNat_add, UInt64.toNat_mul,
    UInt64.reduceToNat, UInt32.size]
  omega

def rolls (rate : Float) : UInt64 → Nat → List Bool
  | _, 0 => []
  | state, count + 1 => (unit (nextWord state) < rate) :: rolls rate (nextWord state) count

theorem rolls_eq (given : rateOf x = .ok rate) (seed : UInt64) (count : Nat) :
    rolls x seed count = injections rate seed.toNat count := by
  induction count generalizing seed with
  | zero => rfl
  | succ count ih =>
      have small : (nextWord seed).toNat < modulus := by
        rw [toNat_nextWord]
        exact Nat.mod_lt _ (by decide)
      have roll : decide (unit (nextWord seed) < x) = fails rate (nextWord seed).toNat := by
        rw [Bool.eq_iff_iff, decide_eq_true_iff, unit_lt_iff given small]
      rw [rolls, injections_succ, ih, roll, toNat_nextWord]

end Rolls

end DeadDrop.Store.Faulty
