import DeadDrop.Text.Utf8

/-!
Every text is read back from its octets, strictly and leniently. The octets of a character are a
lead that tells how many follow and digits in base 64; the step reads exactly these, since a
character has the shortest form and is no surrogate.
-/

namespace DeadDrop.Text.Utf8

theorem utf8EncodeChar_of_ascii {c : Char} (ascii : c.toNat < 0x80) :
    String.utf8EncodeChar c = [UInt8.ofNat c.toNat] := by
  have short : c.val.toNat ≤ 0x7F := Nat.le_of_lt_succ ascii
  simp only [String.utf8EncodeChar, if_pos short]
  rfl

section Steps

variable {lead second third fourth : UInt8} {a b c d : Nat} (rest : Bytes)

theorem lt_of_value {octet : UInt8} (bound : UInt8) {value : Nat} (size : octet.toNat = value)
    (small : value < bound.toNat) : octet < bound := by
  rw [UInt8.lt_iff_toNat_lt, size]
  exact small

theorem not_lt_of_value {octet : UInt8} (bound : UInt8) {value : Nat} (size : octet.toNat = value)
    (large : bound.toNat ≤ value) : ¬ octet < bound := by
  rw [UInt8.lt_iff_toNat_lt, size]
  exact Nat.not_lt.mpr large

theorem within_of_value {octet lower upper : UInt8} {value : Nat} (size : octet.toNat = value)
    (large : lower.toNat ≤ value) (small : value ≤ upper.toNat) :
    (lower ≤ octet && octet ≤ upper) = true := by
  simp only [UInt8.le_iff_toNat_le, size, Bool.and_eq_true, decide_eq_true_eq]
  exact ⟨large, small⟩

theorem isContinuation_of (value : second.toNat = b + 128) (digit : b < 64) :
    isContinuation second = true :=
  within_of_value value (Nat.le_add_left 128 b) (show b + 128 ≤ 191 by omega)

theorem low_of (value : second.toNat = b + 128) (digit : b < 64) : low second = b := by
  rw [low, value]
  omega

theorem step_one (value : lead.toNat = a) (small : a < 128) :
    step lead rest = .char (Char.ofNat a) rest := by
  unfold step
  rw [if_pos (lt_of_value 0x80 value small), value]

theorem step_two (first : lead.toNat = a + 192) (next : second.toNat = b + 128)
    (shortest : 2 ≤ a) (small : a < 32) (digit : b < 64) :
    step lead (second :: rest) = .char (Char.ofNat (a * 64 + b)) rest := by
  unfold step
  rw [if_neg (not_lt_of_value 0x80 first (show 128 ≤ a + 192 by omega)),
    if_neg (not_lt_of_value 0xC2 first (show 194 ≤ a + 192 by omega)),
    if_pos (lt_of_value 0xE0 first (show a + 192 < 224 by omega))]
  simp only [isContinuation_of next digit, if_true, low_of next digit, first, Nat.add_sub_cancel]

theorem secondOfThree_of (first : lead.toNat = a + 224) (next : second.toNat = b + 128)
    (digit : b < 64) (shortest : a = 0 → 32 ≤ b) (scalar : a = 13 → b < 32) :
    secondOfThree lead second = true := by
  unfold secondOfThree
  split
  · next same =>
      rw [same] at first
      have none : a = 0 := by
        change 224 = a + 224 at first
        omega
      have large := shortest none
      exact within_of_value next (show 160 ≤ b + 128 by omega) (show b + 128 ≤ 191 by omega)
  · split
    · next same =>
        rw [same] at first
        have surrogates : a = 13 := by
          change 237 = a + 224 at first
          omega
        have small := scalar surrogates
        exact within_of_value next (Nat.le_add_left 128 b) (show b + 128 ≤ 159 by omega)
    · exact isContinuation_of next digit

theorem step_three (first : lead.toNat = a + 224) (next : second.toNat = b + 128)
    (last : third.toNat = c + 128) (small : a < 16) (digit : b < 64) (digit' : c < 64)
    (shortest : a = 0 → 32 ≤ b) (scalar : a = 13 → b < 32) :
    step lead (second :: third :: rest) = .char (Char.ofNat ((a * 64 + b) * 64 + c)) rest := by
  unfold step
  rw [if_neg (not_lt_of_value 0x80 first (show 128 ≤ a + 224 by omega)),
    if_neg (not_lt_of_value 0xC2 first (show 194 ≤ a + 224 by omega)),
    if_neg (not_lt_of_value 0xE0 first (show 224 ≤ a + 224 by omega)),
    if_pos (lt_of_value 0xF0 first (show a + 224 < 240 by omega))]
  simp only [secondOfThree_of first next digit shortest scalar, isContinuation_of last digit',
    if_true, low_of next digit, low_of last digit', first, Nat.add_sub_cancel]

theorem secondOfFour_of (first : lead.toNat = a + 240) (next : second.toNat = b + 128)
    (digit : b < 64) (shortest : a = 0 → 16 ≤ b) (scalar : a = 4 → b < 16) :
    secondOfFour lead second = true := by
  unfold secondOfFour
  split
  · next same =>
      rw [same] at first
      have none : a = 0 := by
        change 240 = a + 240 at first
        omega
      have large := shortest none
      exact within_of_value next (show 144 ≤ b + 128 by omega) (show b + 128 ≤ 191 by omega)
  · split
    · next same =>
        rw [same] at first
        have last : a = 4 := by
          change 244 = a + 240 at first
          omega
        have small := scalar last
        exact within_of_value next (Nat.le_add_left 128 b) (show b + 128 ≤ 143 by omega)
    · exact isContinuation_of next digit

theorem step_four (first : lead.toNat = a + 240) (next : second.toNat = b + 128)
    (middle : third.toNat = c + 128) (last : fourth.toNat = d + 128) (small : a < 5)
    (digit : b < 64) (digit' : c < 64) (digit'' : d < 64) (shortest : a = 0 → 16 ≤ b)
    (scalar : a = 4 → b < 16) :
    step lead (second :: third :: fourth :: rest) =
      .char (Char.ofNat (((a * 64 + b) * 64 + c) * 64 + d)) rest := by
  unfold step
  rw [if_neg (not_lt_of_value 0x80 first (show 128 ≤ a + 240 by omega)),
    if_neg (not_lt_of_value 0xC2 first (show 194 ≤ a + 240 by omega)),
    if_neg (not_lt_of_value 0xE0 first (show 224 ≤ a + 240 by omega)),
    if_neg (not_lt_of_value 0xF0 first (show 240 ≤ a + 240 by omega)),
    if_pos (lt_of_value 0xF5 first (show a + 240 < 245 by omega))]
  simp only [secondOfFour_of first next digit shortest scalar, isContinuation_of middle digit',
    isContinuation_of last digit'', if_true, low_of next digit, low_of middle digit',
    low_of last digit'', first, Nat.add_sub_cancel]

end Steps

theorem toNat_octet {value : Nat} (small : value < 256) : (UInt8.ofNat value).toNat = value := by
  rw [UInt8.toNat_ofNat']
  omega

theorem step_encodeChar (c : Char) (rest : Bytes) :
    ∃ lead tail, String.utf8EncodeChar c = lead :: tail ∧
      step lead (tail ++ rest) = .char c rest := by
  have valid : c.toNat < 0xD800 ∨ 0xDFFF < c.toNat ∧ c.toNat < 0x110000 := c.valid
  have whole (value : Nat) (same : value = c.toNat) : Char.ofNat value = c := by
    rw [same, Char.ofNat_toNat]
  have known : c.val.toNat = c.toNat := rfl
  unfold String.utf8EncodeChar
  simp only [known]
  generalize c.toNat = v at *
  -- One case for each length; the bounds that choose it are those the step asks for.
  by_cases one : v ≤ 0x7f
  · refine ⟨_, _, if_pos one, ?_⟩
    rw [List.nil_append, step_one rest (toNat_octet (by omega)) (by omega), whole v rfl]
  · rw [if_neg one]
    by_cases two : v ≤ 0x7ff
    · refine ⟨_, _, if_pos two, ?_⟩
      rw [List.singleton_append, step_two rest (toNat_octet (by omega)) (toNat_octet (by omega))
        (by omega) (by omega) (by omega), whole _ (by omega)]
    · rw [if_neg two]
      by_cases three : v ≤ 0xffff
      · refine ⟨_, _, if_pos three, ?_⟩
        rw [List.cons_append, List.singleton_append,
          step_three rest (toNat_octet (by omega)) (toNat_octet (by omega))
            (toNat_octet (by omega)) (by omega) (by omega) (by omega) (by omega) (by omega),
          whole _ (by omega)]
      · refine ⟨_, _, if_neg three, ?_⟩
        rw [List.cons_append, List.cons_append, List.singleton_append,
          step_four rest (toNat_octet (by omega)) (toNat_octet (by omega))
            (toNat_octet (by omega)) (toNat_octet (by omega)) (by omega) (by omega) (by omega)
            (by omega) (by omega) (by omega), whole _ (by omega)]

theorem exists_large_octet {c : Char} (large : ¬ c.toNat < 0x80) :
    ∃ octet ∈ String.utf8EncodeChar c, ¬ octet.toNat < 0x80 := by
  obtain ⟨lead, tail, octets, read⟩ := step_encodeChar c []
  refine ⟨lead, octets ▸ List.mem_cons_self, ?_⟩
  intro small
  have value : ∀ number < 0x80, (Char.ofNat number).toNat = number := by decide
  rw [step_one _ rfl small, Step.char.injEq] at read
  rw [← read.1, value lead.toNat small] at large
  exact large small

theorem encode_of_ascii {chars : List Char} (ascii : ∀ c ∈ chars, c.toNat < 0x80) :
    encode chars = chars.map fun c => UInt8.ofNat c.toNat := by
  induction chars with
  | nil => rfl
  | cons c rest ih =>
      obtain ⟨here, later⟩ := List.forall_mem_cons.mp ascii
      rw [encode, List.flatMap_cons, ← encode, utf8EncodeChar_of_ascii here, ih later]
      rfl

theorem length_encode_of_ascii {chars : List Char} (ascii : ∀ c ∈ chars, c.toNat < 0x80) :
    (encode chars).length = chars.length := by
  rw [encode_of_ascii ascii, List.length_map]

theorem encode_cons (c : Char) (rest : List Char) :
    encode (c :: rest) = String.utf8EncodeChar c ++ encode rest := rfl

theorem encode_append (front back : List Char) :
    encode (front ++ back) = encode front ++ encode back :=
  List.flatMap_append

theorem decodePrefix_encode (done chars : List Char) :
    decodePrefix done (encode chars) = (chars.reverse ++ done, []) := by
  induction chars generalizing done with
  | nil =>
      rw [encode, List.flatMap_nil, decodePrefix]
      rfl
  | cons c rest ih =>
      obtain ⟨lead, tail, octets, read⟩ := step_encodeChar c (encode rest)
      rw [encode_cons, octets, List.cons_append, decodePrefix]
      split
      · next value after same =>
          rw [read] at same
          cases same
          rw [ih]
          simp
      · next after same =>
          rw [read] at same
          cases same

theorem decode_encode (chars : List Char) : decode? (encode chars) = some chars := by
  rw [decode?, decodePrefix_encode]
  simp

theorem decodeLossy_encode (chars : List Char) : decodeLossy (encode chars) = chars := by
  have carried (done : List Char) :
      decodeLossy.go done (encode chars) = done.reverse ++ chars := by
    induction chars generalizing done with
    | nil =>
        rw [encode, List.flatMap_nil, decodeLossy.go]
        simp
    | cons c rest ih =>
        obtain ⟨lead, tail, octets, read⟩ := step_encodeChar c (encode rest)
        rw [encode_cons, octets, List.cons_append, decodeLossy.go]
        split
        · next value after same =>
            rw [read] at same
            cases same
            rw [ih]
            simp
        · next after same =>
            rw [read] at same
            cases same
  exact carried []

theorem textLossy_bytes (text : String) : textLossy (bytes text) = text := by
  rw [textLossy, bytes, decodeLossy_encode, String.ofList_toList]

theorem decode_bytes (text : String) : decode? (bytes text) = some text.toList :=
  decode_encode text.toList

end DeadDrop.Text.Utf8
