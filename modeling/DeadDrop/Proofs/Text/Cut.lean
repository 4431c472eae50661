import DeadDrop.Proofs.Text.Utf8

/-!
A text whose octets are cut after some number of them. The characters that lie before the cut are
read back. A character that the cut goes through begins as every character does but is never
finished, and lenient reading writes one replacement character for what there is of it.
-/

namespace DeadDrop.Text.Utf8

section Part

variable {lead second third : UInt8} {a b c : Nat}

theorem step_alone (large : 128 ≤ lead.toNat) : step lead [] = .broken [] := by
  unfold step
  rw [if_neg (not_lt_of_value 0x80 rfl large)]
  simp only [ite_self]

theorem step_two_of_three (first : lead.toNat = a + 224) (next : second.toNat = b + 128)
    (small : a < 16) (digit : b < 64) (shortest : a = 0 → 32 ≤ b) (scalar : a = 13 → b < 32) :
    step lead [second] = .broken [] := by
  unfold step
  rw [if_neg (not_lt_of_value 0x80 first (show 128 ≤ a + 224 by omega)),
    if_neg (not_lt_of_value 0xC2 first (show 194 ≤ a + 224 by omega)),
    if_neg (not_lt_of_value 0xE0 first (show 224 ≤ a + 224 by omega)),
    if_pos (lt_of_value 0xF0 first (show a + 224 < 240 by omega))]
  simp only [secondOfThree_of first next digit shortest scalar, if_true]

theorem step_part_of_four (first : lead.toNat = a + 240) (next : second.toNat = b + 128)
    (middle : third.toNat = c + 128) (small : a < 5) (digit : b < 64) (digit' : c < 64)
    (shortest : a = 0 → 16 ≤ b) (scalar : a = 4 → b < 16) :
    step lead [second] = .broken [] ∧ step lead [second, third] = .broken [] := by
  have above : ¬ lead < 0x80 ∧ ¬ lead < 0xC2 ∧ ¬ lead < 0xE0 ∧ ¬ lead < 0xF0 :=
    ⟨not_lt_of_value 0x80 first (show 128 ≤ a + 240 by omega),
      not_lt_of_value 0xC2 first (show 194 ≤ a + 240 by omega),
      not_lt_of_value 0xE0 first (show 224 ≤ a + 240 by omega),
      not_lt_of_value 0xF0 first (show 240 ≤ a + 240 by omega)⟩
  have below : lead < 0xF5 := lt_of_value 0xF5 first (show a + 240 < 245 by omega)
  simp only [step, above.1, above.2.1, above.2.2.1, above.2.2.2, below, if_false, if_true,
    secondOfFour_of first next digit shortest scalar, isContinuation_of middle digit', and_self]

end Part

theorem step_part (c : Char) {count : Nat} (some : 0 < count)
    (short : count < (String.utf8EncodeChar c).length) :
    ∃ lead tail, (String.utf8EncodeChar c).take count = lead :: tail ∧
      step lead tail = .broken [] := by
  have valid : c.toNat < 0xD800 ∨ 0xDFFF < c.toNat ∧ c.toNat < 0x110000 := c.valid
  have known : c.val.toNat = c.toNat := rfl
  unfold String.utf8EncodeChar at short ⊢
  simp only [known] at short ⊢
  generalize c.toNat = v at *
  -- A character of several octets has a lead that is no character; the octets behind it go on with
  -- it as far as they are there.
  by_cases one : v ≤ 0x7f
  · rw [if_pos one, List.length_singleton] at short
    omega
  · rw [if_neg one] at short ⊢
    by_cases two : v ≤ 0x7ff
    · rw [if_pos two] at short ⊢
      obtain rfl : count = 1 := by
        simp only [List.length_cons, List.length_nil] at short
        omega
      exact ⟨_, [], rfl, step_alone (by rw [toNat_octet] <;> omega)⟩
    · rw [if_neg two] at short ⊢
      by_cases three : v ≤ 0xffff
      · rw [if_pos three] at short ⊢
        have which : count = 1 ∨ count = 2 := by
          simp only [List.length_cons, List.length_nil] at short
          omega
        rcases which with rfl | rfl
        · exact ⟨_, [], rfl, step_alone (by rw [toNat_octet] <;> omega)⟩
        · exact ⟨_, [_], rfl, step_two_of_three (toNat_octet (by omega)) (toNat_octet (by omega))
            (by omega) (by omega) (by omega) (by omega)⟩
      · rw [if_neg three] at short ⊢
        have which : count = 1 ∨ count = 2 ∨ count = 3 := by
          simp only [List.length_cons, List.length_nil] at short
          omega
        have part := step_part_of_four (toNat_octet (by omega)) (toNat_octet (by omega))
          (toNat_octet (by omega)) (show v / 262144 % 8 < 5 by omega)
          (show v / 4096 % 64 < 64 by omega) (show v / 64 % 64 < 64 by omega) (by omega) (by omega)
        rcases which with rfl | rfl | rfl
        · exact ⟨_, [], rfl, step_alone (by rw [toNat_octet] <;> omega)⟩
        · exact ⟨_, [_], rfl, part.1⟩
        · exact ⟨_, [_, _], rfl, part.2⟩

section Texts

theorem decodeLossy_nil : decodeLossy [] = [] := by
  rw [decodeLossy, decodeLossy.go, List.reverse_nil]

theorem go_eq (done : List Char) (octets : Bytes) :
    decodeLossy.go done octets = done.reverse ++ decodeLossy octets := by
  -- The octets are read from the front; what was read before them only waits.
  induction size : octets.length using Nat.strongRecOn generalizing done octets with
  | ind size' ih =>
      subst size
      cases octets with
      | nil => rw [decodeLossy_nil, decodeLossy.go, List.append_nil]
      | cons lead rest =>
          rw [decodeLossy, decodeLossy.go, decodeLossy.go]
          split
          · next value tail read =>
              have shorter := step_char_length read
              have later := ih tail.length (Nat.lt_succ_of_le shorter)
              rw [later _ tail rfl, later [value] tail rfl]
              simp
          · next tail read =>
              have shorter := step_broken_length read
              have later := ih tail.length (Nat.lt_succ_of_le shorter)
              rw [later _ tail rfl, later [replacement] tail rfl]
              simp

theorem decodeLossy_char (c : Char) (octets : Bytes) :
    decodeLossy (String.utf8EncodeChar c ++ octets) = c :: decodeLossy octets := by
  obtain ⟨lead, tail, written, read⟩ := step_encodeChar c octets
  rw [written, List.cons_append, decodeLossy, decodeLossy.go]
  split
  · next value after same =>
      rw [read] at same
      cases same
      rw [go_eq]
      rfl
  · next after same =>
      rw [read] at same
      cases same

theorem decodeLossy_part (c : Char) {count : Nat} (some : 0 < count)
    (short : count < (String.utf8EncodeChar c).length) :
    decodeLossy ((String.utf8EncodeChar c).take count) = [replacement] := by
  obtain ⟨lead, tail, written, read⟩ := step_part c some short
  rw [written, decodeLossy, decodeLossy.go]
  split
  · next value after same =>
      rw [read] at same
      cases same
  · next after same =>
      rw [read] at same
      cases same
      rw [go_eq, decodeLossy_nil]
      rfl

/-- What is read of a text that is cut to so many octets. -/
inductive CutTo (limit : Nat) : List Char → List Char → Prop where
  | whole {chars : List Char} : (encode chars).length ≤ limit → CutTo limit chars chars
  | between (front rest : List Char) : (encode front).length = limit →
      CutTo limit (front ++ rest) front
  | inside (front : List Char) (c : Char) (rest : List Char) : (encode front).length < limit →
      limit < (encode front).length + (String.utf8EncodeChar c).length →
      CutTo limit (front ++ c :: rest) (front ++ [replacement])

variable {limit : Nat} {chars read : List Char}

theorem CutTo.cons {c : Char} (fits : (String.utf8EncodeChar c).length ≤ limit)
    (cut : CutTo (limit - (String.utf8EncodeChar c).length) chars read) :
    CutTo limit (c :: chars) (c :: read) := by
  have longer (front : List Char) : (encode (c :: front)).length =
      (String.utf8EncodeChar c).length + (encode front).length := by
    rw [encode_cons, List.length_append]
  cases cut with
  | whole within => exact .whole (by rw [longer]; omega)
  | between _ rest full => exact .between (c :: read) rest (by rw [longer]; omega)
  | inside front other rest before behind =>
      exact .inside (c :: front) other rest (by rw [longer]; omega) (by rw [longer]; omega)

theorem cutTo_decodeLossy (limit : Nat) (chars : List Char) :
    CutTo limit chars (decodeLossy ((encode chars).take limit)) := by
  induction chars generalizing limit with
  | nil =>
      have none : (encode []).take limit = [] := List.take_nil
      rw [none, decodeLossy_nil]
      exact .whole (Nat.zero_le limit)
  | cons c rest ih =>
      rw [encode_cons]
      by_cases fits : (String.utf8EncodeChar c).length ≤ limit
      · rw [List.take_append, List.take_of_length_le fits, decodeLossy_char]
        exact (ih _).cons fits
      · have short : limit < (String.utf8EncodeChar c).length := Nat.lt_of_not_le fits
        rw [List.take_append_of_le_length (Nat.le_of_lt short)]
        by_cases none : limit = 0
        · subst none
          rw [List.take_zero, decodeLossy_nil]
          exact .between [] (c :: rest) rfl
        · have some : 0 < limit := Nat.pos_of_ne_zero none
          rw [decodeLossy_part c some short]
          have empty : (encode []).length = 0 := rfl
          exact .inside [] c rest some (by omega)

/-- The cut goes through this character. -/
def CutsThrough (limit : Nat) (chars : List Char) (c : Char) : Prop :=
  ∃ front rest, chars = front ++ c :: rest ∧ (encode front).length < limit ∧
    limit < (encode front).length + (String.utf8EncodeChar c).length

theorem length_encode_mid (front : List Char) (c : Char) (rest : List Char) :
    (encode (front ++ c :: rest)).length =
      (encode front).length + (String.utf8EncodeChar c).length + (encode rest).length := by
  rw [encode_append, encode_cons, List.length_append, List.length_append, Nat.add_assoc]

theorem not_cutsThrough_of_fits (fits : (encode chars).length ≤ limit) (c : Char) :
    ¬ CutsThrough limit chars c := by
  rintro ⟨front, rest, rfl, before, behind⟩
  rw [length_encode_mid] at fits
  omega

theorem not_cutsThrough_of_between {front rest : List Char}
    (full : (encode front).length = limit) (c : Char) : ¬ CutsThrough limit (front ++ rest) c := by
  rintro ⟨other, others, shape, before, behind⟩
  rcases List.append_eq_append_iff.mp shape with ⟨more, rfl, _⟩ | ⟨more, rfl, split⟩
  · rw [encode_append, List.length_append] at before
    omega
  · cases more with
    | nil =>
        rw [List.append_nil] at full
        omega
    | cons first more =>
        obtain ⟨rfl, _⟩ := List.cons.inj split
        rw [length_encode_mid] at full
        omega

/-- Of a text the cut goes through one character at most, so what is read is known with it. -/
theorem CutTo.eq_of_through {front rest : List Char} {c : Char} (cut : CutTo limit chars read)
    (shape : chars = front ++ c :: rest) (before : (encode front).length < limit)
    (behind : limit < (encode front).length + (String.utf8EncodeChar c).length) :
    read = front ++ [replacement] := by
  have through : CutsThrough limit chars c := ⟨front, rest, shape, before, behind⟩
  cases cut with
  | whole fits => exact absurd through (not_cutsThrough_of_fits fits c)
  | between _ others full => exact absurd through (not_cutsThrough_of_between full c)
  | inside other first others before' behind' =>
      rcases List.append_eq_append_iff.mp shape with ⟨more, rfl, split⟩ | ⟨more, rfl, split⟩
      · cases more with
        | nil => rw [List.append_nil]
        | cons next more =>
            obtain ⟨rfl, _⟩ := List.cons.inj split
            rw [length_encode_mid] at before
            omega
      · cases more with
        | nil => rw [List.append_nil]
        | cons next more =>
            obtain ⟨rfl, _⟩ := List.cons.inj split
            rw [length_encode_mid] at before'
            omega

/-- Only what was there is read, unless the cut goes through a character: then the replacement
character stands for it. -/
theorem CutTo.prefix_iff (cut : CutTo limit chars read) :
    read <+: chars ↔ ∀ c, CutsThrough limit chars c → c = replacement := by
  constructor
  · rintro begins c ⟨front, rest, rfl, before, behind⟩
    rw [cut.eq_of_through rfl before behind, List.prefix_append_right_inj] at begins
    obtain ⟨_, same⟩ := begins
    exact (List.cons.inj same).1.symm
  · intro replaced
    cases cut with
    | whole fits => exact List.prefix_refl chars
    | between _ rest full => exact List.prefix_append read rest
    | inside front c rest before behind =>
        rw [replaced c ⟨front, rest, rfl, before, behind⟩, List.prefix_append_right_inj]
        exact ⟨rest, rfl⟩

end Texts

end DeadDrop.Text.Utf8
