import DeadDrop.Bytes
import Mathlib.Algebra.GroupWithZero.Nat

/-!
Numbers of a given width and octets as bits, most significant first. Strings of octets that have the
same bits are the same, and whole octets of bits are the bits of some string.
-/

namespace DeadDrop

def octetBits (octet : UInt8) : List Bool :=
  [7, 6, 5, 4, 3, 2, 1, 0].map octet.toNat.testBit

def lowBits : Nat → Nat → List Bool
  | 0, _ => []
  | width + 1, value => value.testBit width :: lowBits width value

theorem length_lowBits (width value : Nat) : (lowBits width value).length = width := by
  induction width with
  | zero => rfl
  | succ width ih => rw [lowBits, List.length_cons, ih]

theorem lowBits_congr {width left right : Nat}
    (same : ∀ bit < width, left.testBit bit = right.testBit bit) :
    lowBits width left = lowBits width right := by
  induction width with
  | zero => rfl
  | succ width ih =>
      rw [lowBits, lowBits, same width (Nat.lt_succ_self width),
        ih fun bit inside => same bit (Nat.lt_succ_of_lt inside)]

theorem lowBits_mod (width value : Nat) :
    lowBits width (value % 2 ^ width) = lowBits width value := by
  apply lowBits_congr
  intro bit inside
  rw [Nat.testBit_mod_two_pow, decide_eq_true inside, Bool.true_and]

theorem lowBits_add (high low value : Nat) :
    lowBits (high + low) value = lowBits high (value / 2 ^ low) ++ lowBits low value := by
  induction high with
  | zero => rw [Nat.zero_add, lowBits, List.nil_append]
  | succ high ih =>
      rw [Nat.succ_add, lowBits, lowBits, ih, Nat.testBit_div_two_pow, List.cons_append]

theorem lowBits_append (high value : Nat) {low field : Nat} (small : field < 2 ^ low) :
    lowBits high value ++ lowBits low field = lowBits (high + low) (2 ^ low * value + field) := by
  rw [lowBits_add, Nat.mul_add_div (Nat.two_pow_pos low), Nat.div_eq_of_lt small, Nat.add_zero,
    ← lowBits_mod low (2 ^ low * value + field), Nat.mul_add_mod, lowBits_mod]

theorem testBit_eq_of_lowBits_eq {width left right : Nat}
    (same : lowBits width left = lowBits width right) :
    ∀ bit < width, left.testBit bit = right.testBit bit := by
  induction width with
  | zero => nofun
  | succ width ih =>
      obtain ⟨top, others⟩ := List.cons.inj same
      intro bit inside
      rcases Nat.lt_succ_iff_lt_or_eq.mp inside with lower | rfl
      · exact ih others bit lower
      · exact top

theorem lowBits_injective {width left right : Nat} (leftSmall : left < 2 ^ width)
    (rightSmall : right < 2 ^ width) (same : lowBits width left = lowBits width right) :
    left = right := by
  apply Nat.eq_of_testBit_eq
  intro bit
  by_cases inside : bit < width
  · exact testBit_eq_of_lowBits_eq same bit inside
  · have high : 2 ^ width ≤ 2 ^ bit := Nat.pow_le_pow_right (by decide) (Nat.not_lt.mp inside)
    rw [Nat.testBit_lt_two_pow (Nat.lt_of_lt_of_le leftSmall high),
      Nat.testBit_lt_two_pow (Nat.lt_of_lt_of_le rightSmall high)]

theorem exists_lowBits (bits : List Bool) :
    ∃ value < 2 ^ bits.length, lowBits bits.length value = bits := by
  induction bits with
  | nil => exact ⟨0, Nat.one_pos, rfl⟩
  | cons bit rest ih =>
      obtain ⟨value, small, same⟩ := ih
      refine ⟨2 ^ rest.length * bit.toNat + value, ?_, ?_⟩
      · have := Bool.toNat_le bit
        have := Nat.mul_le_mul_left (2 ^ rest.length) this
        rw [List.length_cons, Nat.pow_succ]
        omega
      · have top : (2 ^ rest.length * bit.toNat + value).testBit rest.length = bit := by
          rw [Nat.testBit_two_pow_mul_add _ small, if_neg (Nat.lt_irrefl _), Nat.sub_self]
          cases bit <;> rfl
        rw [List.length_cons, lowBits, top, ← lowBits_mod rest.length, Nat.mul_add_mod,
          lowBits_mod, same]

theorem octetBits_eq (octet : UInt8) : octetBits octet = lowBits 8 octet.toNat := rfl

theorem length_octetBits (octet : UInt8) : (octetBits octet).length = 8 := rfl

theorem getElem?_octetBits (octet : UInt8) {place : Nat} (inside : place < 8) :
    (octetBits octet)[place]? = some (octet.toNat.testBit (7 - place)) := by
  match place, inside with
  | 0, _ | 1, _ | 2, _ | 3, _ | 4, _ | 5, _ | 6, _ | 7, _ => rfl

theorem octetBits_injective {left right : UInt8} (same : octetBits left = octetBits right) :
    left = right :=
  UInt8.toNat_inj.mp (lowBits_injective left.toNat_lt right.toNat_lt same)

namespace Bytes

def bits (bytes : Bytes) : List Bool := bytes.flatMap octetBits

theorem bits_cons (octet : UInt8) (rest : Bytes) :
    bits (octet :: rest) = octetBits octet ++ bits rest := List.flatMap_cons

theorem bits_append (left right : Bytes) : bits (left ++ right) = bits left ++ bits right :=
  List.flatMap_append

theorem length_bits (bytes : Bytes) : bytes.bits.length = 8 * bytes.length := by
  induction bytes with
  | nil => rfl
  | cons octet rest ih =>
      rw [bits_cons, List.length_append, ih, length_octetBits, List.length_cons]
      omega

theorem getElem?_bits (bytes : Bytes) (bit : Nat) :
    bytes.bits[bit]? = bytes[bit / 8]?.map fun octet => octet.toNat.testBit (7 - bit % 8) := by
  induction bytes generalizing bit with
  | nil => rfl
  | cons octet rest ih =>
      rw [bits_cons]
      by_cases first : bit < 8
      · rw [List.getElem?_append_left first, getElem?_octetBits octet first,
          Nat.div_eq_of_lt first, Nat.mod_eq_of_lt first]
        rfl
      · have later : 8 ≤ bit := Nat.not_lt.mp first
        have behind : bit / 8 = (bit - 8) / 8 + 1 := by omega
        have place : (bit - 8) % 8 = bit % 8 := by omega
        rw [List.getElem?_append_right later, length_octetBits, ih, behind,
          List.getElem?_cons_succ, place]

theorem bits_injective {left right : Bytes} (size : left.length = right.length)
    (same : bits left = bits right) : left = right := by
  induction left generalizing right with
  | nil => exact (List.eq_nil_of_length_eq_zero size.symm).symm
  | cons octet rest ih =>
      cases right with
      | nil => cases size
      | cons other others =>
          rw [bits_cons, bits_cons] at same
          obtain ⟨first, later⟩ := List.append_inj same rfl
          rw [octetBits_injective first, ih (Nat.succ_inj.mp size) later]

theorem exists_bits (count : Nat) {bits : List Bool} (size : bits.length = 8 * count) :
    ∃ bytes : Bytes, bytes.length = count ∧ bytes.bits = bits := by
  induction count generalizing bits with
  | zero => exact ⟨[], rfl, (List.eq_nil_of_length_eq_zero size).symm⟩
  | succ count ih =>
      have first : (bits.take 8).length = 8 := List.length_take_of_le (by omega)
      have fewer : (bits.drop 8).length = 8 * count := by
        rw [List.length_drop]
        omega
      obtain ⟨value, small, same⟩ := exists_lowBits (bits.take 8)
      obtain ⟨rest, length, others⟩ := ih fewer
      rw [first] at small same
      refine ⟨UInt8.ofNat value :: rest, by rw [List.length_cons, length], ?_⟩
      rw [bits_cons, octetBits_eq, UInt8.toNat_ofNat_of_lt' small, same, others,
        List.take_append_drop]

end Bytes

end DeadDrop
