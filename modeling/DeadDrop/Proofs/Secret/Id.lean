import DeadDrop.Secret.Id

/-!
The text of an id is read as that id. Each group of digits is some of the octets in hexadecimal, and
each dash stands where a group ends.
-/

namespace DeadDrop

namespace Hex

theorem value?_digit : ∀ nibble < 16, value? (digit nibble) = some nibble := by decide

theorem go_encode (bytes done : Bytes) :
    decode?.go (encode bytes) done = some (done.reverse ++ bytes) := by
  induction bytes generalizing done with
  | nil => simp [encode, decode?.go]
  | cons octet rest ih =>
      have small := octet.toNat_lt
      have high := value?_digit (octet.toNat / 16) (by omega)
      have low := value?_digit (octet.toNat % 16) (by omega)
      have whole : 16 * (octet.toNat / 16) + octet.toNat % 16 = octet.toNat := by omega
      have digits : encode (octet :: rest) =
          digit (octet.toNat / 16) :: digit (octet.toNat % 16) :: encode rest := rfl
      rw [digits, decode?.go, high, low]
      simp only [whole, UInt8.ofNat_toNat]
      rw [ih]
      simp

theorem decode?_encode (bytes : Bytes) : decode? (encode bytes) = some bytes :=
  go_encode bytes []

theorem length_encode (bytes : Bytes) : (encode bytes).length = 2 * bytes.length := by
  induction bytes with
  | nil => rfl
  | cons octet rest ih =>
      have digits : encode (octet :: rest) =
          digit (octet.toNat / 16) :: digit (octet.toNat % 16) :: encode rest := rfl
      rw [digits, List.length_cons, List.length_cons, ih, List.length_cons]
      omega

theorem forall_mem_encode {holds : Char → Prop} (digits : ∀ nibble < 16, holds (digit nibble))
    (bytes : Bytes) : ∀ c ∈ encode bytes, holds c := by
  intro c member
  obtain ⟨octet, -, here⟩ := List.mem_flatMap.mp member
  have small := octet.toNat_lt
  simp only [ofByte, List.mem_cons, List.not_mem_nil, or_false] at here
  rcases here with rfl | rfl
  · exact digits _ (by omega)
  · exact digits _ (by omega)

end Hex

namespace SecretId

theorem isLowerHex_digit : ∀ nibble < 16, isLowerHex (Hex.digit nibble) = true := by decide

/-- From a position on, the dashes stand between groups of these sizes and a last group that takes
what is left of `total` octets. -/
def Spaced : Nat → List Nat → Nat → Prop
  | start, [], total => ∀ offset < 2 * total, isDash (start + offset) = false
  | start, size :: sizes, total =>
      size ≤ total ∧ (∀ offset < 2 * size, isDash (start + offset) = false) ∧
        isDash (start + 2 * size) = true ∧ Spaced (start + 2 * size + 1) sizes (total - size)

theorem groups_spaced : Spaced 0 groups 16 := by
  simp only [Spaced, groups]
  decide

def areCanonicalFrom (start : Nat) (chars : List Char) : Bool :=
  (chars.zipIdx start).all fun (c, position) => isCanonicalAt position c

theorem areCanonicalFrom_cons (start : Nat) (c : Char) (rest : List Char) :
    areCanonicalFrom start (c :: rest) =
      (isCanonicalAt start c && areCanonicalFrom (start + 1) rest) := rfl

theorem areCanonicalFrom_append (start : Nat) (front back : List Char) :
    areCanonicalFrom start (front ++ back) =
      (areCanonicalFrom start front && areCanonicalFrom (start + front.length) back) := by
  simp only [areCanonicalFrom, List.zipIdx_append, List.all_append]

theorem areCanonicalFrom_encode {start : Nat} {bytes : Bytes}
    (undashed : ∀ offset < 2 * bytes.length, isDash (start + offset) = false) :
    areCanonicalFrom start (Hex.encode bytes) = true := by
  apply List.all_eq_true.mpr
  rintro ⟨c, position⟩ member
  obtain ⟨first, last, here⟩ := List.mem_zipIdx member
  rw [Hex.length_encode] at last
  have clear := undashed (position - start) (by omega)
  rw [Nat.add_sub_cancel' first] at clear
  have digits : ∀ c ∈ Hex.encode bytes, isLowerHex c = true :=
    Hex.forall_mem_encode isLowerHex_digit bytes
  have digit : isLowerHex c = true := by
    rw [here]
    exact digits _ (List.getElem_mem _)
  simpa [isCanonicalAt, clear] using digit

theorem areCanonicalFrom_writeGroups {start : Nat} {sizes : List Nat} {bytes : Bytes}
    (spaced : Spaced start sizes bytes.length) :
    areCanonicalFrom start (writeGroups sizes bytes) = true := by
  -- Each group starts behind the dash of the one before it.
  induction sizes generalizing start bytes with
  | nil => exact areCanonicalFrom_encode spaced
  | cons size sizes ih =>
      obtain ⟨fits, undashed, dash, others⟩ := spaced
      have width : (bytes.take size).length = size := List.length_take_of_le fits
      rw [← width] at undashed
      rw [← List.length_drop] at others
      have between : isCanonicalAt (start + 2 * size) '-' = true := by
        simp [isCanonicalAt, dash]
      rw [writeGroups, areCanonicalFrom_append, areCanonicalFrom_encode undashed,
        Hex.length_encode, width, areCanonicalFrom_cons, between, ih others]
      rfl

theorem length_writeGroups {start : Nat} {sizes : List Nat} {bytes : Bytes}
    (spaced : Spaced start sizes bytes.length) :
    (writeGroups sizes bytes).length = 2 * bytes.length + sizes.length := by
  induction sizes generalizing start bytes with
  | nil => exact Hex.length_encode bytes
  | cons size sizes ih =>
      obtain ⟨fits, -, -, others⟩ := spaced
      rw [← List.length_drop] at others
      rw [writeGroups, List.length_append, List.length_cons, ih others, Hex.length_encode,
        List.length_take_of_le fits, List.length_drop, List.length_cons]
      omega

theorem readGroups?_writeGroups {start : Nat} {sizes : List Nat} {bytes : Bytes}
    (spaced : Spaced start sizes bytes.length) :
    readGroups? sizes (writeGroups sizes bytes) = some bytes := by
  induction sizes generalizing start bytes with
  | nil => exact Hex.decode?_encode bytes
  | cons size sizes ih =>
      obtain ⟨fits, -, -, others⟩ := spaced
      have width : (Hex.encode (bytes.take size)).length = 2 * size := by
        rw [Hex.length_encode, List.length_take_of_le fits]
      rw [← List.length_drop] at others
      rw [writeGroups, readGroups?, List.drop_left' width, List.take_left' width]
      simp only [Hex.decode?_encode, ih others, Option.bind_some, Option.map_some,
        List.take_append_drop]

theorem spaced (id : SecretId) : Spaced 0 groups id.octets.val.length := by
  rw [show id.octets.val.length = 16 from id.octets.property]
  exact groups_spaced

theorem length_write (id : SecretId) : (write id).length = textLength := by
  rw [write, length_writeGroups id.spaced, show id.octets.val.length = 16 from id.octets.property]
  rfl

theorem areCanonical_write (id : SecretId) : areCanonical (write id) = true := by
  have canonical := areCanonicalFrom_writeGroups id.spaced
  simp only [areCanonical, id.length_write, decide_true, Bool.true_and]
  exact canonical

theorem readHyphenated?_write (id : SecretId) : readHyphenated? (write id) = some id := by
  have size : id.octets.val.length = 16 := id.octets.property
  rw [readHyphenated?, write, readGroups?_writeGroups id.spaced]
  simp only [Option.bind_some, Sized.ofBytes?, dif_pos size, Option.map_some]

theorem read?_write (id : SecretId) : read? (write id) = some id := by
  rw [read?, if_pos (areCanonical_write id), readHyphenated?_write]

theorem ofText?_text (id : SecretId) : ofText? id.text = some id := by
  rw [ofText?, text, String.toList_ofList, read?_write]

theorem forall_mem_write {holds : Char → Prop} (dash : holds '-')
    (digits : ∀ nibble < 16, holds (Hex.digit nibble)) (id : SecretId) :
    ∀ c ∈ write id, holds c := by
  have grouped (sizes : List Nat) (bytes : Bytes) : ∀ c ∈ writeGroups sizes bytes, holds c := by
    induction sizes generalizing bytes with
    | nil => exact Hex.forall_mem_encode digits bytes
    | cons size sizes ih =>
        intro c member
        rcases List.mem_append.mp member with early | late
        · exact Hex.forall_mem_encode digits _ c early
        · rcases List.mem_cons.mp late with rfl | later
          · exact dash
          · exact ih _ c later
  exact grouped groups id.octets.val

theorem slash_not_mem_write (id : SecretId) : '/' ∉ write id := by
  have others : ∀ c ∈ write id, c ≠ '/' := forall_mem_write (by decide) (by decide) id
  exact fun slash => others '/' slash rfl

theorem write_ne_nil (id : SecretId) : write id ≠ [] := by
  intro none
  have canonical := areCanonical_write id
  rw [none] at canonical
  cases canonical

section Canonical

variable {chars : List Char}

theorem digit_of_isLowerHex {c : Char} (digit : isLowerHex c = true) :
    ∃ nibble < 16, Hex.digit nibble = c := by
  simp only [isLowerHex, Bool.or_eq_true, Bool.and_eq_true, decide_eq_true_eq] at digit
  rcases digit with ⟨low, high⟩ | ⟨low, high⟩
  · have first : 48 ≤ c.toNat := low
    have last : c.toNat ≤ 57 := high
    refine ⟨c.toNat - 48, by omega, ?_⟩
    rw [Hex.digit, if_pos (by omega), Nat.add_sub_cancel' first, Char.ofNat_toNat]
  · have first : 97 ≤ c.toNat := low
    have last : c.toNat ≤ 102 := high
    refine ⟨c.toNat - 87, by omega, ?_⟩
    rw [Hex.digit, if_neg (by omega), Nat.add_sub_cancel' (by omega), Char.ofNat_toNat]

theorem exists_encode {count : Nat} (size : chars.length = 2 * count)
    (digits : ∀ c ∈ chars, isLowerHex c = true) :
    ∃ bytes : Bytes, bytes.length = count ∧ Hex.encode bytes = chars := by
  induction count generalizing chars with
  | zero => exact ⟨[], rfl, (List.eq_nil_of_length_eq_zero size).symm⟩
  | succ count ih =>
      match chars, size, digits with
      | high :: low :: rest, size, digits =>
          obtain ⟨upper, upperSmall, rfl⟩ := digit_of_isLowerHex (digits _ List.mem_cons_self)
          obtain ⟨lower, lowerSmall, rfl⟩ := digit_of_isLowerHex
            (digits _ (List.mem_cons_of_mem _ List.mem_cons_self))
          have shorter : rest.length = 2 * count := by
            simp only [List.length_cons] at size
            omega
          obtain ⟨bytes, long, same⟩ := ih shorter fun c member =>
            digits c (List.mem_cons_of_mem _ (List.mem_cons_of_mem _ member))
          have octet : (UInt8.ofNat (16 * upper + lower)).toNat = 16 * upper + lower := by
            rw [UInt8.toNat_ofNat']
            omega
          have front : (16 * upper + lower) / 16 = upper := by omega
          have back : (16 * upper + lower) % 16 = lower := by omega
          refine ⟨UInt8.ofNat (16 * upper + lower) :: bytes, by rw [List.length_cons, long], ?_⟩
          rw [Hex.encode, List.flatMap_cons, Hex.ofByte, octet, front, back, ← same]
          rfl

theorem isCanonicalAt_of_areCanonicalFrom {start : Nat}
    (canonical : areCanonicalFrom start chars = true) {position : Nat}
    (inside : position < chars.length) : isCanonicalAt (start + position) chars[position] = true :=
  List.all_eq_true.mp canonical (chars[position], start + position)
    (List.mem_zipIdx_iff_le_and_getElem?_sub.mpr ⟨by omega, by simp [inside]⟩)

theorem isLowerHex_of_undashed {start : Nat} (canonical : areCanonicalFrom start chars = true)
    (undashed : ∀ offset < chars.length, isDash (start + offset) = false) :
    ∀ c ∈ chars, isLowerHex c = true := by
  intro c member
  obtain ⟨position, inside, rfl⟩ := List.getElem_of_mem member
  have here := isCanonicalAt_of_areCanonicalFrom canonical inside
  rw [isCanonicalAt, undashed position inside] at here
  exact here

theorem exists_writeGroups {start total : Nat} {sizes : List Nat}
    (spaced : Spaced start sizes total) (canonical : areCanonicalFrom start chars = true)
    (long : chars.length = 2 * total + sizes.length) :
    ∃ bytes : Bytes, bytes.length = total ∧ writeGroups sizes bytes = chars := by
  induction sizes generalizing start total chars with
  | nil =>
      rw [List.length_nil, Nat.add_zero] at long
      refine exists_encode long (isLowerHex_of_undashed canonical ?_)
      rw [long]
      exact spaced
  | cons size sizes ih =>
      obtain ⟨fits, undashed, dash, others⟩ := spaced
      rw [List.length_cons] at long
      have width : (chars.take (2 * size)).length = 2 * size :=
        List.length_take_of_le (by omega)
      obtain ⟨c, rest, behind⟩ : ∃ c rest, chars.drop (2 * size) = c :: rest :=
        List.exists_cons_of_length_pos (by rw [List.length_drop]; omega)
      have left : (c :: rest).length = chars.length - 2 * size := by
        rw [← behind, List.length_drop]
      rw [← List.take_append_drop (2 * size) chars, areCanonicalFrom_append, width, behind,
        areCanonicalFrom_cons, Bool.and_eq_true, Bool.and_eq_true] at canonical
      obtain ⟨first, between, later⟩ := canonical
      have mark : c = '-' := by simpa [isCanonicalAt, dash] using between
      obtain ⟨group, groupLong, groupSame⟩ := exists_encode width
        (isLowerHex_of_undashed first (by rw [width]; exact undashed))
      obtain ⟨bytes, bytesLong, bytesSame⟩ := ih others later
        (by rw [List.length_cons] at left; omega)
      refine ⟨group ++ bytes, by rw [List.length_append, groupLong, bytesLong]; omega, ?_⟩
      rw [writeGroups, List.take_left' groupLong, List.drop_left' groupLong, groupSame, bytesSame,
        ← mark, ← behind, List.take_append_drop]

theorem exists_write (canonical : areCanonical chars = true) : ∃ id, write id = chars := by
  rw [areCanonical, Bool.and_eq_true, decide_eq_true_eq] at canonical
  obtain ⟨bytes, long, same⟩ := exists_writeGroups groups_spaced canonical.2 canonical.1
  exact ⟨⟨bytes, long⟩, same⟩

theorem isSome_ofText? (text : String) : (ofText? text).isSome = isCanonical text := by
  rw [isCanonical, ofText?]
  cases canonical : areCanonical text.toList with
  | false => rw [read?, if_neg (by rw [canonical]; exact Bool.false_ne_true), Option.isSome_none]
  | true =>
      obtain ⟨id, same⟩ := exists_write canonical
      rw [← same, read?_write, Option.isSome_some]

end Canonical

end SecretId

end DeadDrop
