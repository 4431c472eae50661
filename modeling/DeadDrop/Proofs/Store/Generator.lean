import DeadDrop.Proofs.Store.Faults
import Mathlib.Algebra.Ring.GeomSum
import Mathlib.Data.Int.ModEq
import Mathlib.Data.List.Perm.Subperm
import Mathlib.Data.Nat.ModEq
import Mathlib.Data.Nat.Prime.Basic
import Mathlib.Tactic.Ring

/-!
The generator behind injected failures comes back to a state only after it has been through all
of them. Its multiplier leaves one when it is divided by four, so a power of two that divides the
strides of a way divides the count of its steps, and its increment is odd, so no way back is
shorter than the modulus.
-/

namespace DeadDrop.Store.Faulty

open Finset (range)

section Strides

variable {multiplier : Nat}

def strides (multiplier count : Nat) : Nat := ∑ step ∈ range count, multiplier ^ step

theorem strides_succ (multiplier count : Nat) :
    strides multiplier (count + 1) = multiplier * strides multiplier count + 1 := geom_sum_succ

theorem strides_mul (positive : 0 < multiplier) (count : Nat) :
    strides multiplier count * (multiplier - 1) + 1 = multiplier ^ count := by
  obtain ⟨less, rfl⟩ := Nat.exists_eq_add_one.mpr positive
  induction count with
  | zero => simp [strides]
  | succ count ih =>
      rw [strides_succ, pow_succ, ← ih, Nat.add_sub_cancel]
      ring

theorem strides_double (multiplier count : Nat) :
    strides multiplier (2 * count) = strides multiplier count * (multiplier ^ count + 1) := by
  simp only [strides, Nat.two_mul, Finset.sum_range_add, pow_add, ← Finset.mul_sum]
  ring

theorem strides_mod_two (odd : multiplier % 2 = 1) (count : Nat) :
    strides multiplier count % 2 = count % 2 := by
  induction count with
  | zero => rfl
  | succ count ih =>
      rw [strides_succ, Nat.add_mod, Nat.mul_mod, odd, ih]
      omega

theorem pow_mod_four (rest : multiplier % 4 = 1) (count : Nat) : multiplier ^ count % 4 = 1 := by
  rw [Nat.pow_mod, rest, Nat.one_pow]

theorem dvd_of_dvd_strides (rest : multiplier % 4 = 1) {power count : Nat}
    (divides : 2 ^ power ∣ strides multiplier count) : 2 ^ power ∣ count := by
  induction power generalizing count with
  | zero => exact Nat.one_dvd count
  | succ power ih =>
      have even : 2 ∣ strides multiplier count :=
        (Dvd.intro_left _ (pow_succ 2 power).symm).trans divides
      have odd : multiplier % 2 = 1 := by omega
      have parity := strides_mod_two odd count
      obtain ⟨half, rfl⟩ : 2 ∣ count := by omega
      -- Both halves together are the first one times a number that two divides and four does not.
      have share := pow_mod_four rest half
      obtain ⟨quarter, once⟩ : ∃ quarter, multiplier ^ half + 1 = 2 * (2 * quarter + 1) :=
        ⟨multiplier ^ half / 4, by omega⟩
      rw [strides_double, once, pow_succ, Nat.mul_left_comm, Nat.mul_comm (2 ^ power)] at divides
      have lower := Nat.dvd_of_mul_dvd_mul_left Nat.two_pos divides
      have coprime : Nat.Coprime (2 ^ power) (2 * quarter + 1) :=
        Nat.Coprime.pow_left power (Nat.coprime_two_left.mpr ⟨quarter, rfl⟩)
      have smaller := ih (coprime.dvd_of_dvd_mul_right lower)
      rw [pow_succ, Nat.mul_comm]
      exact Nat.mul_dvd_mul_left 2 smaller

end Strides

section Ways

def multiplier : Nat := 1664525

def increment : Nat := 1013904223

theorem multiplier_mod_four : multiplier % 4 = 1 := rfl

theorem odd_increment : Odd increment := ⟨506952111, rfl⟩

theorem modulus_eq : modulus = 2 ^ 32 := rfl

variable {left right seed state count : Nat}

theorem next_eq (state : Nat) : next state = (multiplier * state + increment) % modulus := rfl

theorem next_congr (same : left % modulus = right % modulus) : next left = next right :=
  (Nat.ModEq.mul_left multiplier same).add_right increment

theorem iterate_congr (same : left % modulus = right % modulus) (count : Nat) :
    next^[count + 1] left = next^[count + 1] right := by
  rw [Function.iterate_succ_apply, Function.iterate_succ_apply, next_congr same]

theorem iterate_modEq (count state : Nat) :
    next^[count] state ≡
      multiplier ^ count * state + increment * strides multiplier count [MOD modulus] := by
  induction count with
  | zero =>
      have begun : multiplier ^ 0 * state + increment * strides multiplier 0 = state := by
        simp [strides]
      rw [begun]
      exact Nat.ModEq.refl state
  | succ count ih =>
      have shape : multiplier ^ (count + 1) * state + increment * strides multiplier (count + 1) =
          multiplier * (multiplier ^ count * state + increment * strides multiplier count) +
            increment := by
        rw [strides_succ]
        ring
      rw [Function.iterate_succ_apply', next_eq, shape]
      exact (Nat.mod_modEq _ _).trans ((ih.mul_left multiplier).add_right increment)

/-- A way back is a multiple of the strides by an odd number, as the increment is odd. -/
theorem dvd_of_returns (returns : next^[count] state = state) : modulus ∣ count := by
  -- What the state is moved by, with the strides as a factor.
  have grown := strides_mul (show 0 < multiplier by decide) count
  have shape : multiplier ^ count * state + increment * strides multiplier count =
      state + strides multiplier count * ((multiplier - 1) * state + increment) := by
    rw [← grown]
    ring
  have way := iterate_modEq count state
  rw [returns, shape] at way
  have divides : modulus ∣ strides multiplier count * ((multiplier - 1) * state + increment) :=
    Nat.modEq_zero_iff_dvd.mp (Nat.ModEq.add_left_cancel' state way).symm
  have even : Even (multiplier - 1) := ⟨832262, rfl⟩
  have odd : Odd ((multiplier - 1) * state + increment) :=
    (even.mul_right state).add_odd odd_increment
  have coprime := Nat.Coprime.pow_left 32 (Nat.coprime_two_left.mpr odd)
  rw [modulus_eq] at divides ⊢
  exact dvd_of_dvd_strides multiplier_mod_four (coprime.dvd_of_dvd_mul_right divides)

def draws (seed count : Nat) : List Nat :=
  (List.range count).map fun index => next^[index + 1] seed

theorem draw_injective {first second : Nat} (firstInside : first < modulus)
    (secondInside : second < modulus) (same : next^[first + 1] seed = next^[second + 1] seed) :
    first = second := by
  wlog order : first ≤ second generalizing first second
  · exact (this secondInside firstInside same.symm (Nat.le_of_not_le order)).symm
  have returns : next^[second - first] (next^[first + 1] seed) = next^[first + 1] seed := by
    rw [← Function.iterate_add_apply, ← Nat.add_assoc, Nat.sub_add_cancel order, same]
  have multiple := dvd_of_returns returns
  have none := Nat.eq_zero_of_dvd_of_lt multiple (by omega)
  omega

theorem nodup_draws (seed : Nat) : (draws seed modulus).Nodup := by
  apply List.Nodup.map_on _ List.nodup_range
  intro first firstInside second secondInside same
  exact draw_injective (List.mem_range.mp firstInside) (List.mem_range.mp secondInside) same

/-- In as many draws as it has states the generator comes to each of them once. -/
theorem draws_perm (seed : Nat) : (draws seed modulus).Perm (List.range modulus) := by
  have inside : draws seed modulus ⊆ List.range modulus := by
    intro state member
    obtain ⟨index, -, rfl⟩ := List.mem_map.mp member
    exact List.mem_range.mpr (drawn_lt seed index)
  have size : (List.range modulus).length ≤ (draws seed modulus).length := by
    rw [draws, List.length_map]
  exact (List.subperm_of_subset (nodup_draws seed) inside).perm_of_length_le size

end Ways

end DeadDrop.Store.Faulty
