import DeadDrop.Proofs.Envelope.Specifier
import Mathlib.Data.List.GetD

/-!
What a derived key is made of. The digests of the material behind no zeros, one zero, two zeros and
so on form one endless row, whatever the digest, and a key is as much of its front as was asked for.
Material to be repeated is the front of an endless repetition. How many repetitions are absorbed at
a time, and how many digests a key needs, does not show.
-/

namespace DeadDrop

namespace Endless

def front (count : Nat) (endless : Nat → UInt8) : Bytes := (List.range count).map endless

def row (size : Nat) (block : Nat → Bytes) (index : Nat) : UInt8 :=
  (block (index / size)).getD (index % size) 0

def repeated (unit : Bytes) : Nat → UInt8 := row unit.length fun _ => unit

variable {endless : Nat → UInt8} {block : Nat → Bytes} {unit : Bytes} {count size : Nat}

@[simp] theorem length_front (count : Nat) (endless : Nat → UInt8) :
    (front count endless).length = count := by
  rw [front, List.length_map, List.length_range]

theorem front_add (first second : Nat) (endless : Nat → UInt8) :
    front (first + second) endless =
      front first endless ++ front second fun index => endless (first + index) := by
  rw [front, List.range_add, List.map_append, List.map_map]
  rfl

theorem take_front (shorter : size ≤ count) :
    (front count endless).take size = front size endless := by
  rw [front, ← List.map_take, List.take_range, Nat.min_eq_left shorter, front]

theorem front_of_list {list : Bytes} (fits : count ≤ list.length)
    (same : ∀ index < count, endless index = list.getD index 0) :
    front count endless = list.take count := by
  apply List.ext_getElem
  · rw [length_front, List.length_take, Nat.min_eq_left fits]
  · intro index inside _
    rw [length_front] at inside
    have within : index < list.length := Nat.lt_of_lt_of_le inside fits
    simp [front, same index inside, within]

theorem front_row_succ (count : Nat) (full : (block count).length = size) :
    front ((count + 1) * size) (row size block) =
      front (count * size) (row size block) ++ block count := by
  have last : front size (fun index => row size block (count * size + index)) = block count := by
    rw [front_of_list (Nat.le_of_eq full.symm), ← full, List.take_length]
    intro index inside
    have some : 0 < size := Nat.zero_lt_of_lt inside
    have which : (count * size + index) / size = count := by
      rw [Nat.mul_comm, Nat.mul_add_div some, Nat.div_eq_of_lt inside, Nat.add_zero]
    have place : (count * size + index) % size = index := by
      rw [Nat.mul_comm, Nat.mul_add_mod, Nat.mod_eq_of_lt inside]
    rw [row, which, place]
  rw [Nat.succ_mul, front_add, last]

theorem repeated_next (unit : Bytes) (index : Nat) :
    repeated unit (unit.length + index) = repeated unit index := by
  rw [repeated, row, row, Nat.add_mod_left]

theorem front_repeated_short (fits : count ≤ unit.length) :
    front count (repeated unit) = unit.take count := by
  apply front_of_list fits
  intro index inside
  rw [repeated, row, Nat.mod_eq_of_lt (Nat.lt_of_lt_of_le inside fits)]

theorem front_repeated_long (unit : Bytes) (count : Nat) :
    front (unit.length + count) (repeated unit) = unit ++ front count (repeated unit) := by
  rw [front_add, front_repeated_short (Nat.le_refl _), List.take_length]
  simp only [repeated_next]

theorem getD_flatten_replicate (unit : Bytes) (count : Nat) {index : Nat}
    (inside : index < count * unit.length) :
    (List.replicate count unit).flatten.getD index 0 = unit.getD (index % unit.length) 0 := by
  induction count generalizing index with
  | zero =>
      rw [Nat.zero_mul] at inside
      exact absurd inside (Nat.not_lt_zero index)
  | succ count ih =>
      rw [List.replicate_succ, List.flatten_cons]
      by_cases first : index < unit.length
      · rw [List.getD_append _ _ _ _ first, Nat.mod_eq_of_lt first]
      · have behind : unit.length ≤ index := Nat.le_of_not_lt first
        have before : index - unit.length < count * unit.length := by
          rw [Nat.succ_mul] at inside
          omega
        rw [List.getD_append_right _ _ _ _ behind, ih before, ← Nat.mod_eq_sub_mod behind]

theorem repeated_replicate (unit : Bytes) {count : Nat} (whole : 0 < count) :
    repeated (List.replicate count unit).flatten = repeated unit := by
  have length : (List.replicate count unit).flatten.length = count * unit.length := by
    rw [List.length_flatten, List.map_replicate, List.sum_replicate_nat]
  funext index
  rw [repeated, repeated, row, row, length]
  by_cases empty : unit = []
  · simp [empty]
  · have some : 0 < count * unit.length := Nat.mul_pos whole (List.length_pos_iff.mpr empty)
    rw [getD_flatten_replicate unit count (Nat.mod_lt index some), Nat.mod_mul_left_mod]

end Endless

namespace Envelope.Specifier

open Endless (front row repeated)

/-- What is digested behind the zeros. -/
def material (passphrase : Bytes) : Specifier → Bytes
  | simple _ => passphrase
  | salted _ salt => salt.val ++ passphrase
  | iterated _ salt count =>
      front (max (decodeCount count) (salt.val ++ passphrase).length)
        (repeated (salt.val ++ passphrase))

section Derive

variable (digest : Digest) (specifier : Specifier) (passphrase : Bytes)

/-- The digests of some material behind no zeros, one zero, two zeros and so on, in a row. -/
def digests (material : Bytes) : Nat → UInt8 :=
  row digest.size fun zeros => digest.ofBytes (List.replicate zeros 0 ++ material)

theorem absorbBatches_eq (batch : Bytes) (filled : 0 < batch.length) (remaining : Nat)
    (state : digest.State) :
    absorbBatches digest batch filled remaining state =
      digest.absorbAll state (front remaining (repeated batch)) := by
  induction remaining, state using absorbBatches.induct digest batch filled with
  | case1 remaining state more ih =>
      have split : remaining = batch.length + (remaining - batch.length) := by omega
      rw [absorbBatches, if_pos more, ih, ← Digest.absorbAll_append, ← Endless.front_repeated_long,
        ← split]
  | case2 remaining state less =>
      have short : remaining ≤ batch.length := by omega
      rw [absorbBatches, if_neg less, Endless.front_repeated_short short]

theorem absorbRepeated_eq {unit : Bytes} (filled : unit ≠ []) (total : Nat)
    (state : digest.State) :
    absorbRepeated digest unit total state =
      digest.absorbAll state (front total (repeated unit)) := by
  have whole : 0 < max (batchSize / unit.length) 1 := by omega
  rw [absorbRepeated, dif_neg filled, absorbBatches_eq, batchOf,
    Endless.repeated_replicate unit whole]

theorem absorbMaterial_eq (state : digest.State) :
    absorbMaterial digest specifier passphrase state =
      digest.absorbAll state (specifier.material passphrase) := by
  cases specifier with
  | simple hash => rfl
  | salted hash salt => rfl
  | iterated hash salt count =>
      have filled : salt.val ++ passphrase ≠ [] := by
        intro empty
        have length := congrArg List.length empty
        rw [List.length_append, salt.property, List.length_nil] at length
        omega
      exact absorbRepeated_eq digest filled _ state

theorem keyBlock_eq (zeros : Nat) :
    keyBlock digest specifier passphrase zeros =
      digest.ofBytes (List.replicate zeros 0 ++ specifier.material passphrase) := by
  rw [keyBlock, absorbMaterial_eq, Digest.ofBytes, Digest.absorbAll_append]

theorem front_digests_succ (material : Bytes) (zeros : Nat) :
    front ((zeros + 1) * digest.size) (digests digest material) =
      front (zeros * digest.size) (digests digest material) ++
        digest.ofBytes (List.replicate zeros 0 ++ material) :=
  Endless.front_row_succ zeros (digest.length_ofBytes _)

-- The key so far is a front of the row that ends with a digest.
theorem lengthen_eq {size zeros : Nat} {key : Bytes}
    (grown : key = front (zeros * digest.size) (digests digest (specifier.material passphrase))) :
    lengthen digest specifier passphrase size zeros key =
      front size (digests digest (specifier.material passphrase)) := by
  induction zeros, key using lengthen.induct digest specifier passphrase size with
  | case1 zeros key short ih =>
      rw [lengthen, if_pos short]
      apply ih
      rw [front_digests_succ, grown, keyBlock_eq]
  | case2 zeros key enough =>
      have long : size ≤ zeros * digest.size := by
        rw [grown, Endless.length_front] at enough
        exact Nat.le_of_not_lt enough
      rw [lengthen, if_neg enough, grown, Endless.take_front long]

theorem deriveWith_eq (size : Nat) :
    deriveWith digest specifier passphrase size =
      front size (digests digest (specifier.material passphrase)) := by
  apply lengthen_eq
  rw [Nat.zero_mul]
  rfl

/-- A key of any size is the front of the endless row of digests, has that size, and begins every
longer key from the same passphrase; and this is so for the digest that the specifier names. -/
theorem derives_front_of_digests (size : Nat) :
    (deriveWith digest specifier passphrase size =
        front size (digests digest (specifier.material passphrase)) ∧
      (deriveWith digest specifier passphrase size).length = size ∧
      ∀ more, deriveWith digest specifier passphrase size <+:
        deriveWith digest specifier passphrase (size + more)) ∧
      specifier.derive passphrase size =
        front size (digests specifier.hash.digest (specifier.material passphrase)) := by
  refine ⟨⟨deriveWith_eq digest specifier passphrase size, ?_, ?_⟩, deriveWith_eq _ _ _ size⟩
  · exact length_deriveWith digest specifier passphrase size
  · intro more
    rw [deriveWith_eq, deriveWith_eq, ← Endless.take_front (Nat.le_add_right size more)]
    exact List.take_prefix _ _

end Derive

end Envelope.Specifier

end DeadDrop
