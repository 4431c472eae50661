import DeadDrop.Decimal.Shortest
import Mathlib

/-!
Binary floating point by value. The bits of a number are read here and by its arithmetic alike, and
numbers as they are stored compare as their values do. Rounding and packing leave alone what has no
more digits than fit, so small whole numbers are kept as they are, and powers of two divide them
without loss.
-/

namespace DeadDrop.Decimal

open Float.Model (Format UnpackedFloat totalExponent)
open Float.Model.UnpackedFloat (ExtendedMantissa Sign packComponents unpackExponent unpackMantissa
  unpackSign)

section Fields

def word (x : Float) : BitVec Format.binary64.numBits := x.toBits.toBitVec

def signed (x : Float) : Sign := if signOf x then .negative else .positive

variable (x : Float)

theorem toNat_mantissa : (unpackMantissa (word x)).toNat = x.toBits.toNat % hiddenBit := by
  simp [unpackMantissa, word, BitVec.extractLsb_toNat, hiddenBit]

theorem toNat_exponent :
    (unpackExponent (word x)).toNat = x.toBits.toNat / hiddenBit % 2048 := by
  simp [unpackExponent, word, BitVec.extractLsb_toNat, Nat.shiftRight_eq_div_pow, hiddenBit]

theorem toNat_sign : (unpackSign (word x)).toNat = x.toBits.toNat / 2 ^ 63 := by
  have small := x.toBits.toNat_lt
  simp [unpackSign, word, BitVec.extractLsb_toNat, Nat.shiftRight_eq_div_pow]
  omega

theorem ofBitVec_sign : Sign.ofBitVec (unpackSign (word x)) = signed x := by
  have shifted : (x.toBits >>> 63).toNat = x.toBits.toNat / 2 ^ 63 := by
    simp [Nat.shiftRight_eq_div_pow]
  have clear : unpackSign (word x) = 0#1 ↔ x.toBits.toNat / 2 ^ 63 = 0 := by
    rw [← BitVec.toNat_inj, toNat_sign x]
    rfl
  have set : x.toBits >>> 63 = 1 ↔ x.toBits.toNat / 2 ^ 63 = 1 := by
    rw [← UInt64.toNat_inj, shifted]
    rfl
  have small := x.toBits.toNat_lt
  simp only [Sign.ofBitVec, signed, signOf, clear, set, decide_eq_true_eq]
  by_cases negative : x.toBits.toNat / 2 ^ 63 = 1
  · rw [if_pos negative, if_neg (by omega)]
  · rw [if_neg negative, if_pos (by omega)]

theorem toNat_append_mantissa (mantissa : BitVec 52) :
    (1#1 ++ mantissa).toNat = hiddenBit + mantissa.toNat := by
  rw [BitVec.toNat_append, ← Nat.shiftLeft_add_eq_or_of_lt mantissa.isLt]
  rfl

end Fields

section Stored

/-- Mantissa and exponent of a positive number as they are stored. -/
structure Canonical (mantissa : Nat) (exponent : Int) : Prop where
  narrow : mantissa < 2 * hiddenBit
  least : -1074 ≤ exponent
  full : hiddenBit ≤ mantissa ∨ exponent = -1074

inductive Reads (x : Float) : UnpackedFloat → Prop
  | zero (found : decode x = .zero) : Reads x (.zero (signed x))
  | finite (value : Binary) (found : decode x = .finite value)
      (canonical : Canonical value.mantissa value.exponent) (positive : 0 < value.mantissa) :
      Reads x (.finite (signed x) value.mantissa value.exponent positive)
  | infinite (found : decode x = .infinite) : Reads x (.infinity (signed x))
  | undefined (found : decode x = .undefined) : Reads x .notANumber

variable {x : Float}

theorem Reads.stored (value : Binary) {mantissa : Nat} {exponent : Int}
    {positive : 0 < mantissa} (found : decode x = .finite value)
    (canonical : Canonical value.mantissa value.exponent) (same : mantissa = value.mantissa)
    (place : exponent = value.exponent) :
    Reads x (.finite (signed x) mantissa exponent positive) := by
  subst same place
  exact .finite value found canonical positive

theorem reads_unpack (x : Float) : Reads x x.toModel.unpack := by
  have fraction := toNat_mantissa x
  have biased := toNat_exponent x
  have full : unpackExponent (word x) = -1#_ ↔ x.toBits.toNat / hiddenBit % 2048 = 2047 := by
    rw [← BitVec.toNat_inj, biased]
    rfl
  have low : unpackExponent (word x) = 0#_ ↔ x.toBits.toNat / hiddenBit % 2048 = 0 := by
    rw [← BitVec.toNat_inj, biased]
    rfl
  have none : unpackMantissa (word x) = 0#_ ↔ x.toBits.toNat % hiddenBit = 0 := by
    rw [← BitVec.toNat_inj, fraction]
    rfl
  have implicit : (1#1 ++ unpackMantissa (word x)).toNat =
      hiddenBit + x.toBits.toNat % hiddenBit := by
    rw [toNat_append_mantissa, fraction]
  have inside : x.toBits.toNat % hiddenBit < hiddenBit := Nat.mod_lt _ (by decide)
  change Reads x (UnpackedFloat.unpack Format.binary64 (word x))
  rw [UnpackedFloat.unpack]
  dsimp only
  rw [ofBitVec_sign]
  split
  · next top =>
      have most := full.mp top
      split
      · next clear => exact .infinite (by simp [decode, most, none.mp clear])
      · next set => exact .undefined (by simp [decode, most, mt none.mpr set])
  · next below =>
      have less := mt full.mpr below
      split
      · next bottom =>
          have least := low.mp bottom
          split
          · next clear => exact .zero (by simp [decode, least, none.mp clear])
          · next set =>
              refine .stored ⟨x.toBits.toNat % hiddenBit, -1074, false⟩ ?_ ?_ fraction ?_
              · simp [decode, least, mt none.mpr set]
              · exact ⟨by dsimp only; omega, le_refl _, .inr rfl⟩
              · simp [biased, least, Format.exponentBias]
      · next above =>
          have more := mt low.mpr above
          refine .stored ⟨hiddenBit + x.toBits.toNat % hiddenBit,
            (x.toBits.toNat / hiddenBit % 2048 : Nat) - 1075, x.toBits.toNat % hiddenBit = 0 ∧
              x.toBits.toNat / hiddenBit % 2048 > 1⟩ ?_ ?_ implicit ?_
          · simp [decode, less, more]
          · exact ⟨by dsimp only; omega, by dsimp only; omega, .inl (Nat.le_add_right _ _)⟩
          · simp [biased, Format.exponentBias]

theorem le_iff_unpack (x y : Float) : x ≤ y ↔ x.toModel.unpack.le y.toModel.unpack = true :=
  decide_eq_true_iff

theorem lt_iff_unpack (x y : Float) : x < y ↔ x.toModel.unpack.lt y.toModel.unpack = true :=
  decide_eq_true_iff

theorem unpack_one :
    (1.0 : Float).toModel.unpack = .finite .positive hiddenBit (-52) (by decide) := by
  have bits : (1.0 : Float).toModel.toBits = 0x3FF0000000000000 := by decide +kernel
  rw [Float.Model.unpack, bits]
  rfl

theorem unpack_zero : (0.0 : Float).toModel.unpack = .zero .positive := by
  have bits : (0.0 : Float).toModel.toBits = 0 := by decide +kernel
  rw [Float.Model.unpack, bits]
  rfl

end Stored

section Order

variable {left right : Nat} {lower upper : Int}

theorem Canonical.lt_of_lt (low : Canonical left lower) (high : Canonical right upper)
    (below : lower < upper) : (left : Rat) * 2 ^ lower < right * 2 ^ upper := by
  have filled : hiddenBit ≤ right := by
    apply high.full.resolve_right
    have := low.least
    omega
  have narrow : (left : Rat) < hiddenBit * 2 := by
    have := low.narrow
    exact_mod_cast Nat.mul_comm 2 hiddenBit ▸ this
  calc (left : Rat) * 2 ^ lower < hiddenBit * 2 * 2 ^ lower :=
        mul_lt_mul_of_pos_right narrow (zpow_pos two_pos lower)
    _ = hiddenBit * 2 ^ (lower + 1) := by rw [zpow_add_one₀ two_ne_zero, mul_assoc, mul_comm 2]
    _ ≤ right * 2 ^ upper := by
        apply mul_le_mul (Nat.cast_le.mpr filled) _ (zpow_pos two_pos _).le (Nat.cast_nonneg _)
        exact zpow_le_zpow_right₀ one_le_two below

theorem Canonical.lt_iff (first : Canonical left lower) (second : Canonical right upper) :
    (left : Rat) * 2 ^ lower < right * 2 ^ upper ↔
      lower < upper ∨ lower = upper ∧ left < right := by
  rcases lt_trichotomy lower upper with below | rfl | above
  · simp only [below, true_or, iff_true]
    exact first.lt_of_lt second below
  · rw [mul_lt_mul_iff_left₀ (zpow_pos two_pos lower), Nat.cast_lt]
    simp
  · simp only [above.not_gt, above.ne', false_and, or_self, iff_false, not_lt]
    exact (second.lt_of_lt first above).le

variable {leftPositive : 0 < left} {rightPositive : 0 < right}

theorem lt_finite_iff (first : Canonical left lower) (second : Canonical right upper) :
    (UnpackedFloat.finite .positive left lower leftPositive).lt
      (.finite .positive right upper rightPositive) = true ↔
        (left : Rat) * 2 ^ lower < right * 2 ^ upper := by
  rw [first.lt_iff second, UnpackedFloat.lt, UnpackedFloat.compare]
  simp only [beq_iff_eq, Option.some.injEq, Ordering.then_eq_lt, Std.compare_eq_lt,
    Std.LawfulEqOrd.compare_eq_iff_eq]

theorem le_finite_iff (first : Canonical left lower) (second : Canonical right upper) :
    (UnpackedFloat.finite .positive left lower leftPositive).le
      (.finite .positive right upper rightPositive) = true ↔
        (left : Rat) * 2 ^ lower ≤ right * 2 ^ upper := by
  rw [← not_lt, second.lt_iff first, UnpackedFloat.le, UnpackedFloat.compare]
  simp only [Option.any_some, Ordering.isLE_then_iff_or, Std.compare_eq_lt, Std.isLE_compare,
    Std.LawfulEqOrd.compare_eq_iff_eq]
  omega

end Order

section Normal

/-- With the leading bit set, and in the range of exponents. -/
structure Normal (mantissa : Nat) (exponent : Int) : Prop where
  full : hiddenBit ≤ mantissa
  narrow : mantissa < 2 * hiddenBit
  least : -1074 ≤ exponent
  most : exponent ≤ 971

variable {mantissa : Nat} {exponent : Int}

theorem Normal.positive (normal : Normal mantissa exponent) : 0 < mantissa :=
  Nat.lt_of_lt_of_le (by decide) normal.full

theorem Normal.canonical (normal : Normal mantissa exponent) : Canonical mantissa exponent :=
  ⟨normal.narrow, normal.least, .inl normal.full⟩

theorem Normal.log2 (normal : Normal mantissa exponent) (places : Nat) :
    (mantissa * 2 ^ places).log2 = 52 + places := by
  have positive : mantissa * 2 ^ places ≠ 0 :=
    (Nat.mul_pos normal.positive (Nat.two_pow_pos places)).ne'
  rw [Nat.log2_eq_iff positive]
  constructor
  · rw [pow_add]
    exact Nat.mul_le_mul_right (2 ^ places) normal.full
  · rw [Nat.add_right_comm, pow_add]
    exact Nat.mul_lt_mul_of_pos_right normal.narrow (Nat.two_pow_pos places)

/-- However many zeros are written behind the digits, they are rounded to the same place. -/
theorem Normal.target (normal : Normal mantissa exponent) (places : Nat) :
    Format.binary64.targetExponent (totalExponent (mantissa * 2 ^ places) (exponent - places)) =
      exponent := by
  have least := normal.least
  rw [Format.targetExponent, totalExponent, normal.log2]
  simp only [Format.mantissaBits, Format.minExponent]
  omega

theorem shiftRight_zeros (mantissa places : Nat) :
    (⟨mantissa * 2 ^ places, false, false⟩ : ExtendedMantissa) >>> places =
      ⟨mantissa, false, false⟩ := by
  have halved (half : Nat) :
      ExtendedMantissa.shiftRightOne ⟨half * 2, false, false⟩ = ⟨half, false, false⟩ := by
    simp [ExtendedMantissa.shiftRightOne]
  change Nat.repeat ExtendedMantissa.shiftRightOne places _ = _
  induction places generalizing mantissa with
  | zero => simp [Nat.repeat]
  | succ places ih =>
      rw [Nat.repeat, pow_succ, Nat.mul_comm (2 ^ places), ← Nat.mul_assoc, ih, halved]

theorem Normal.shift (normal : Normal mantissa exponent) (places : Nat) :
    UnpackedFloat.shiftToTargetExponent Format.binary64 (mantissa * 2 ^ places)
      (exponent - places) .exact = (⟨mantissa, false, false⟩, exponent) := by
  have distance : (exponent - (exponent - places)).toNat = places := by omega
  rw [UnpackedFloat.shiftToTargetExponent, normal.target, UnpackedFloat.shiftToExponent]
  simp only [distance, ExtendedMantissa.ofMantissaAndAccuracy, shiftRight_zeros,
    Int.sub_add_cancel]

theorem Normal.round (normal : Normal mantissa exponent) (sign : Sign) (places : Nat) :
    UnpackedFloat.roundWithAccuracy Format.binary64 sign (mantissa * 2 ^ places)
      (exponent - places) .exact = .finite sign mantissa exponent normal.positive := by
  have again := normal.shift 0
  rw [Nat.pow_zero, Nat.mul_one, Int.natCast_zero, Int.sub_zero] at again
  rw [UnpackedFloat.roundWithAccuracy, normal.shift]
  simp only [ExtendedMantissa.roundedMantissa, ExtendedMantissa.accuracy,
    UnpackedFloat.Accuracy.roundToNearestEven, again, normal.positive.ne', dite_false]

theorem Normal.pack (normal : Normal mantissa exponent) (sign : Sign) {biased : Nat}
    (place : (biased : Int) = exponent + 1075) :
    UnpackedFloat.pack Format.binary64 (.finite sign mantissa exponent normal.positive) =
      packComponents Format.binary64 sign (BitVec.ofNat _ biased) (BitVec.ofNat _ mantissa) := by
  have most := normal.most
  have bits := normal.log2 0
  rw [Nat.pow_zero, Nat.mul_one] at bits
  have same : (exponent + (Format.binary64.exponentBias : Int) + (52 : Nat)).toNat = biased := by
    simp only [Format.exponentBias]
    omega
  rw [UnpackedFloat.pack]
  simp only [same, bits]
  rw [if_neg (by omega), if_pos (by rfl)]

theorem Normal.unpack_pack (normal : Normal mantissa exponent) (sign : Sign) :
    (Float.Model.pack (.finite sign mantissa exponent normal.positive)).unpack =
      .finite sign mantissa exponent normal.positive := by
  have ⟨full, narrow, least, most⟩ := normal
  obtain ⟨biased, place⟩ := Int.eq_ofNat_of_zero_le (show 0 ≤ exponent + 1075 by omega)
  have packed := normal.pack sign place.symm
  have stored : (BitVec.ofNat 11 biased).toNat = biased := by
    rw [BitVec.toNat_ofNat, Nat.mod_eq_of_lt (by omega)]
  have inner : BitVec.ofNat 11 biased ≠ -1#_ := by
    rw [ne_eq, ← BitVec.toNat_inj, stored]
    change biased ≠ 2047
    omega
  have outer : BitVec.ofNat 11 biased ≠ 0#_ := by
    rw [ne_eq, ← BitVec.toNat_inj, stored]
    change biased ≠ 0
    omega
  have implicit : (1#1 ++ BitVec.ofNat 52 mantissa).toNat = mantissa := by
    rw [toNat_append_mantissa, BitVec.toNat_ofNat]
    simp only [hiddenBit] at full narrow ⊢
    omega
  have exact : (biased : Int) - ((Format.binary64.exponentBias : Int) + (52 : Nat)) =
      exponent := by
    simp only [Format.exponentBias]
    omega
  change UnpackedFloat.unpack Format.binary64 (UnpackedFloat.pack Format.binary64 _) = _
  rw [packed, UnpackedFloat.unpack]
  simp only [UnpackedFloat.unpackExponent_packComponents,
    UnpackedFloat.unpackMantissa_packComponents, inner, outer, if_false, implicit, stored,
    UnpackedFloat.unpackSign_packComponents, Sign.ofBitVec_toBitVec, exact]

end Normal

section Whole

variable {number : Nat}

theorem normal_whole (some : 0 < number) (small : number < 2 ^ 53) :
    Normal (number * 2 ^ (52 - number.log2)) (number.log2 - 52) := by
  have low := Nat.log2_self_le some.ne'
  have high := Nat.lt_log2_self (n := number)
  have bits : number.log2 < 53 := (Nat.log2_lt some.ne').mpr small
  have split : (2 : Nat) ^ number.log2 * 2 ^ (52 - number.log2) = hiddenBit := by
    rw [← pow_add, Nat.add_sub_of_le (by omega)]
    rfl
  have filled := Nat.mul_le_mul_right (2 ^ (52 - number.log2)) low
  have narrow := Nat.mul_lt_mul_of_pos_right high (Nat.two_pow_pos (52 - number.log2))
  rw [split] at filled
  rw [pow_succ, Nat.mul_right_comm, split, Nat.mul_comm hiddenBit] at narrow
  exact ⟨filled, narrow, by omega, by omega⟩

theorem unpack_toFloat {number : UInt64} (some : 0 < number.toNat)
    (small : number.toNat < 2 ^ 53) :
    number.toFloat.toModel.unpack = .finite .positive
      (number.toNat * 2 ^ (52 - number.toNat.log2)) (number.toNat.log2 - 52)
      (normal_whole some small).positive := by
  have normal := normal_whole some small
  have bits : number.toNat.log2 < 53 := (Nat.log2_lt some.ne').mpr small
  have target : Format.binary64.targetExponent (totalExponent number.toNat 0) =
      number.toNat.log2 - 52 := by
    rw [Format.targetExponent, totalExponent]
    simp only [Format.mantissaBits, Format.minExponent]
    omega
  have distance : (0 - ((number.toNat.log2 : Int) - 52)).toNat = 52 - number.toNat.log2 := by
    omega
  have place : (0 : Int) - (52 - number.toNat.log2 : Nat) = number.toNat.log2 - 52 := by omega
  have kept := normal.round .positive 0
  rw [Nat.pow_zero, Nat.mul_one, Int.natCast_zero, Int.sub_zero] at kept
  have rounded : UnpackedFloat.ofUInt64 Format.binary64 number =
      .finite .positive (number.toNat * 2 ^ (52 - number.toNat.log2)) (number.toNat.log2 - 52)
        normal.positive := by
    rw [UnpackedFloat.ofUInt64, UnpackedFloat.ofNat, UnpackedFloat.ofInt, UnpackedFloat.normalize,
      Int.compare_eq_gt.mpr (by omega)]
    simp only [Int.toNat_natCast, UnpackedFloat.round, target, UnpackedFloat.decreaseExponent,
      distance, place, Nat.shiftLeft_eq, kept]
  change (Float.Model.pack (UnpackedFloat.ofUInt64 Format.binary64 number)).unpack = _
  rw [rounded, normal.unpack_pack]

variable {mantissa : Nat} {exponent : Int}

theorem divCore_two_pow (normal : Normal mantissa exponent) (places : Nat)
    (least : -1073 ≤ exponent - places) :
    UnpackedFloat.divCore Format.binary64 mantissa exponent hiddenBit (places - 52) =
      (mantissa * 2 ^ 1, exponent - places - (1 : Nat), .exact) := by
  have bits := normal.log2 0
  rw [Nat.pow_zero, Nat.mul_one] at bits
  have one : hiddenBit.log2 = 52 := by decide +kernel
  have target : Format.binary64.targetExponent (totalExponent mantissa exponent -
      totalExponent hiddenBit (places - 52)) = exponent - places - 1 := by
    rw [Format.targetExponent, totalExponent, totalExponent, bits, one]
    simp only [Format.mantissaBits, Format.minExponent]
    omega
  have lower : min (exponent - (places - 52)) (exponent - places - 1) = exponent - places - 1 := by
    omega
  have distance : (exponent - (places - 52) - (exponent - places - 1)).toNat = 53 := by omega
  have whole : mantissa <<< 53 = mantissa * 2 ^ 1 * hiddenBit := by
    rw [Nat.shiftLeft_eq, Nat.mul_assoc]
    rfl
  rw [UnpackedFloat.divCore]
  simp only [target, lower, distance, whole]
  rw [Nat.mul_div_cancel _ (by decide), Nat.mul_mod_left]
  rfl

theorem Normal.lower (normal : Normal mantissa exponent) (places : Nat)
    (least : -1073 ≤ exponent - places) : Normal mantissa (exponent - places) := by
  have most := normal.most
  exact ⟨normal.full, normal.narrow, by omega, by omega⟩

theorem div_two_pow (normal : Normal mantissa exponent) (places : Nat)
    (least : -1073 ≤ exponent - places) (positive : 0 < hiddenBit) :
    UnpackedFloat.div Format.binary64 (.finite .positive mantissa exponent normal.positive)
      (.finite .positive hiddenBit (places - 52) positive) =
        .finite .positive mantissa (exponent - places) normal.positive := by
  rw [UnpackedFloat.div, divCore_two_pow normal places least]
  exact (normal.lower places least).round .positive 1

end Whole

end DeadDrop.Decimal
