import DeadDrop.Armor.Base64
import DeadDrop.Proofs.Bits
import Mathlib.Data.List.Basic

/-!
Base64 is read back as it was written, in any alphabet whose digits keep their values and leave the
padding sign alone. Texts of whole groups may be written piece by piece, and each of their digits
stands for six bits.
-/

namespace DeadDrop.Armor.Base64

structure Alphabet.Sound (alphabet : Alphabet) : Prop where
  values : ∀ value < 64, alphabet.value? (alphabet.digit value) = some value
  padding : alphabet.value? '=' = none

theorem standard_sound : Alphabet.standard.Sound := ⟨by decide +kernel, by decide⟩

theorem urlSafe_sound : Alphabet.urlSafe.Sound := ⟨by decide +kernel, by decide⟩

variable {alphabet : Alphabet}

section Groups

variable (x y z : UInt8)

theorem ofNat_eq {value : Nat} {octet : UInt8} (same : value = octet.toNat) :
    UInt8.ofNat value = octet := by
  rw [same, UInt8.ofNat_toNat]

theorem join_three :
    join (x.toNat / 4) (x.toNat % 4 * 16 + y.toNat / 16) (y.toNat % 16 * 4 + z.toNat / 64)
      (z.toNat % 64) = (x, y, z) := by
  have := x.toNat_lt
  have := y.toNat_lt
  have := z.toNat_lt
  simp only [join, Prod.mk.injEq]
  exact ⟨ofNat_eq (by omega), ofNat_eq (by omega), ofNat_eq (by omega)⟩

theorem join_two :
    (join (x.toNat / 4) (x.toNat % 4 * 16 + y.toNat / 16) (y.toNat % 16 * 4) 0).1 = x ∧
      (join (x.toNat / 4) (x.toNat % 4 * 16 + y.toNat / 16) (y.toNat % 16 * 4) 0).2.1 = y := by
  have := x.toNat_lt
  have := y.toNat_lt
  simp only [join]
  exact ⟨ofNat_eq (by omega), ofNat_eq (by omega)⟩

theorem join_one : (join (x.toNat / 4) (x.toNat % 4 * 16) 0 0).1 = x := by
  have := x.toNat_lt
  exact ofNat_eq (by omega)

end Groups

theorem go_encode (sound : alphabet.Sound) (done bytes : Bytes) :
    decode?.go alphabet done (encode alphabet bytes) = some (done.reverse ++ bytes) := by
  induction bytes using encode.induct generalizing done with
  | case1 => simp [encode, decode?.go]
  | case2 x =>
      have := x.toNat_lt
      have first := sound.values (x.toNat / 4) (by omega)
      have second := sound.values (x.toNat % 4 * 16) (by omega)
      simp [encode, decode?.go, first, second, sound.padding, join_one]
  | case3 x y =>
      have := x.toNat_lt
      have := y.toNat_lt
      have first := sound.values (x.toNat / 4) (by omega)
      have second := sound.values (x.toNat % 4 * 16 + y.toNat / 16) (by omega)
      have third := sound.values (y.toNat % 16 * 4) (by omega)
      obtain ⟨left, right⟩ := join_two x y
      simp [encode, decode?.go, first, second, third, sound.padding, left, right]
  | case4 x y z rest ih =>
      have := x.toNat_lt
      have := y.toNat_lt
      have := z.toNat_lt
      have first := sound.values (x.toNat / 4) (by omega)
      have second := sound.values (x.toNat % 4 * 16 + y.toNat / 16) (by omega)
      have third := sound.values (y.toNat % 16 * 4 + z.toNat / 64) (by omega)
      have fourth := sound.values (z.toNat % 64) (by omega)
      simp [encode, decode?.go, first, second, third, fourth, join_three, ih]

theorem decode_encode (sound : alphabet.Sound) (bytes : Bytes) :
    decode? alphabet (encode alphabet bytes) = some bytes :=
  go_encode sound [] bytes

theorem encode_append (groups : Nat) {front : Bytes} (rest : Bytes)
    (size : front.length = 3 * groups) :
    encode alphabet (front ++ rest) = encode alphabet front ++ encode alphabet rest := by
  induction groups generalizing front with
  | zero =>
      have none : front = [] := List.eq_nil_of_length_eq_zero size
      simp [none, encode]
  | succ groups ih =>
      match front, size with
      | x :: y :: z :: front, size =>
          have fewer : front.length = 3 * groups := by
            simp only [List.length_cons] at size
            omega
          simp [encode, ih fewer]

theorem length_encode (alphabet : Alphabet) (bytes : Bytes) :
    (encode alphabet bytes).length = 4 * ((bytes.length + 2) / 3) := by
  induction bytes using encode.induct with
  | case1 => rfl
  | case2 x => simp [encode]
  | case3 x y => simp [encode]
  | case4 x y z rest ih =>
      simp only [encode, List.length_cons, ih]
      omega

theorem encode_drop (alphabet : Alphabet) (groups : Nat) (bytes : Bytes) :
    (encode alphabet bytes).drop (4 * groups) = encode alphabet (bytes.drop (3 * groups)) := by
  by_cases enough : 3 * groups ≤ bytes.length
  · have size : (bytes.take (3 * groups)).length = 3 * groups := List.length_take_of_le enough
    have digits : (encode alphabet (bytes.take (3 * groups))).length = 4 * groups := by
      rw [length_encode, size]
      omega
    have parts : encode alphabet bytes = encode alphabet (bytes.take (3 * groups)) ++
        encode alphabet (bytes.drop (3 * groups)) := by
      rw [← encode_append groups _ size, List.take_append_drop]
    rw [parts, ← digits, List.drop_left]
  · have few : (encode alphabet bytes).length ≤ 4 * groups := by
      rw [length_encode]
      omega
    rw [List.drop_eq_nil_of_le few, List.drop_eq_nil_of_le (Nat.le_of_not_le enough)]
    rfl

section Sextets

def digits (alphabet : Alphabet) (values : List (Fin 64)) : List Char :=
  values.map fun value : Fin 64 => alphabet.digit value

def sextets (values : List (Fin 64)) : List Bool :=
  values.flatMap fun value : Fin 64 => lowBits 6 value

theorem digits_injective (sound : alphabet.Sound) : Function.Injective (digits alphabet) := by
  apply List.map_injective_iff.mpr
  intro left right same
  have worth := congrArg alphabet.value? same
  rw [sound.values left left.isLt, sound.values right right.isLt] at worth
  exact Fin.ext (Option.some.inj worth)

theorem sextets_cons (value : Fin 64) (rest : List (Fin 64)) :
    sextets (value :: rest) = lowBits 6 value ++ sextets rest := List.flatMap_cons

theorem length_sextets (values : List (Fin 64)) : (sextets values).length = 6 * values.length := by
  induction values with
  | nil => rfl
  | cons value rest ih =>
      rw [sextets_cons, List.length_append, length_lowBits, ih, List.length_cons]
      omega

theorem sextets_take (count : Nat) (values : List (Fin 64)) :
    sextets (values.take count) = (sextets values).take (6 * count) := by
  induction count generalizing values with
  | zero => rfl
  | succ count ih =>
      cases values with
      | nil => exact List.take_nil.symm
      | cons value rest =>
          have whole : (lowBits 6 value).length ≤ 6 * (count + 1) := by
            rw [length_lowBits]
            omega
          have left : 6 * (count + 1) - (lowBits 6 value).length = 6 * count := by
            rw [length_lowBits]
            omega
          rw [List.take_succ_cons, sextets_cons, sextets_cons, ih, List.take_append,
            List.take_of_length_le whole, left]

theorem sextets_injective : Function.Injective sextets := by
  intro left right same
  induction left generalizing right with
  | nil =>
      cases right with
      | nil => rfl
      | cons value rest => cases same
  | cons value rest ih =>
      cases right with
      | nil => cases same
      | cons other others =>
          rw [sextets_cons, sextets_cons] at same
          obtain ⟨first, later⟩ := List.append_inj same rfl
          rw [Fin.ext (lowBits_injective value.isLt other.isLt first), ih later]

theorem bits_group (x y z : UInt8) :
    octetBits x ++ (octetBits y ++ octetBits z) =
      lowBits 6 (x.toNat / 4) ++ (lowBits 6 (x.toNat % 4 * 16 + y.toNat / 16) ++
        (lowBits 6 (y.toNat % 16 * 4 + z.toNat / 64) ++ lowBits 6 (z.toNat % 64))) := by
  have := x.toNat_lt
  have := y.toNat_lt
  have := z.toNat_lt
  have whole : 2 ^ (8 + 8) * x.toNat + (2 ^ 8 * y.toNat + z.toNat) =
      2 ^ (6 + (6 + 6)) * (x.toNat / 4) + (2 ^ (6 + 6) * (x.toNat % 4 * 16 + y.toNat / 16) +
        (2 ^ 6 * (y.toNat % 16 * 4 + z.toNat / 64) + z.toNat % 64)) := by
    omega
  simp only [octetBits_eq]
  rw [lowBits_append 8 _ (by omega), lowBits_append 8 _ (by omega), whole,
    lowBits_append 6 _ (by omega), lowBits_append 6 _ (by omega), lowBits_append 6 _ (by omega)]

theorem exists_sextets (alphabet : Alphabet) (groups : Nat) {bytes : Bytes}
    (size : bytes.length = 3 * groups) :
    ∃ values, encode alphabet bytes = digits alphabet values ∧ sextets values = bytes.bits := by
  induction groups generalizing bytes with
  | zero =>
      have none : bytes = [] := List.eq_nil_of_length_eq_zero size
      exact ⟨[], by rw [none]; rfl, by rw [none]; rfl⟩
  | succ groups ih =>
      match bytes, size with
      | x :: y :: z :: rest, size =>
          have fewer : rest.length = 3 * groups := by
            simp only [List.length_cons] at size
            omega
          obtain ⟨values, written, bits⟩ := ih fewer
          have := x.toNat_lt
          have := y.toNat_lt
          have := z.toNat_lt
          let group : List (Fin 64) := [⟨x.toNat / 4, by omega⟩,
            ⟨x.toNat % 4 * 16 + y.toNat / 16, by omega⟩,
            ⟨y.toNat % 16 * 4 + z.toNat / 64, by omega⟩, ⟨z.toNat % 64, by omega⟩]
          refine ⟨group ++ values, ?_, ?_⟩
          · rw [encode, written]
            rfl
          · have same := bits_group x y z
            simp only [← List.append_assoc] at same
            simp only [group, List.cons_append, List.nil_append, sextets_cons, bits,
              Bytes.bits_cons, ← List.append_assoc, same]

theorem exists_sextets_take (alphabet : Alphabet) {groups count : Nat} {bytes : Bytes}
    (whole : 3 * groups ≤ bytes.length) (inside : count ≤ 4 * groups) :
    ∃ values, (encode alphabet bytes).take count = digits alphabet values ∧
      values.length = count ∧ sextets values = bytes.bits.take (6 * count) := by
  have size : (bytes.take (3 * groups)).length = 3 * groups := List.length_take_of_le whole
  obtain ⟨values, written, spelled⟩ := exists_sextets alphabet groups size
  have full : values.length = 4 * groups := by
    have length := congrArg List.length written
    rw [length_encode, size, digits, List.length_map] at length
    omega
  have text : encode alphabet bytes =
      digits alphabet values ++ encode alphabet (bytes.drop (3 * groups)) := by
    rw [← written, ← encode_append groups _ size, List.take_append_drop]
  have bits : bytes.bits = sextets values ++ Bytes.bits (bytes.drop (3 * groups)) := by
    rw [spelled, ← Bytes.bits_append, List.take_append_drop]
  refine ⟨values.take count, ?_, ?_, ?_⟩
  · have front : count ≤ (digits alphabet values).length := by
      rw [digits, List.length_map, full]
      exact inside
    rw [text, List.take_append_of_le_length front, digits, digits, List.map_take]
  · rw [List.length_take, full]
    exact Nat.min_eq_left inside
  · have front : 6 * count ≤ (sextets values).length := by
      rw [length_sextets, full]
      omega
    rw [sextets_take, bits, List.take_append_of_le_length front]

end Sextets

theorem mem_encode {bytes : Bytes} {c : Char} (member : c ∈ encode alphabet bytes) :
    c = '=' ∨ ∃ value < 64, c = alphabet.digit value := by
  induction bytes using encode.induct with
  | case1 => cases member
  | case2 x =>
      have := x.toNat_lt
      simp only [encode, List.mem_cons, List.not_mem_nil, or_false] at member
      rcases member with same | same | same | same
      · exact Or.inr ⟨_, by omega, same⟩
      · exact Or.inr ⟨_, by omega, same⟩
      · exact Or.inl same
      · exact Or.inl same
  | case3 x y =>
      have := x.toNat_lt
      have := y.toNat_lt
      simp only [encode, List.mem_cons, List.not_mem_nil, or_false] at member
      rcases member with same | same | same | same
      · exact Or.inr ⟨_, by omega, same⟩
      · exact Or.inr ⟨_, by omega, same⟩
      · exact Or.inr ⟨_, by omega, same⟩
      · exact Or.inl same
  | case4 x y z rest ih =>
      have := x.toNat_lt
      have := y.toNat_lt
      have := z.toNat_lt
      simp only [encode, List.mem_cons] at member
      rcases member with same | same | same | same | later
      · exact Or.inr ⟨_, by omega, same⟩
      · exact Or.inr ⟨_, by omega, same⟩
      · exact Or.inr ⟨_, by omega, same⟩
      · exact Or.inr ⟨_, by omega, same⟩
      · exact ih later

theorem encode_head {bytes : Bytes} (some : bytes ≠ []) :
    ∃ value < 64, ∃ rest, encode alphabet bytes = alphabet.digit value :: rest := by
  match bytes, some with
  | [x], _ =>
      have := x.toNat_lt
      exact ⟨x.toNat / 4, by omega, _, rfl⟩
  | [x, y], _ =>
      have := x.toNat_lt
      exact ⟨x.toNat / 4, by omega, _, rfl⟩
  | x :: y :: z :: rest, _ =>
      have := x.toNat_lt
      exact ⟨x.toNat / 4, by omega, _, rfl⟩

end DeadDrop.Armor.Base64
