import DeadDrop.Proofs.Bits
import DeadDrop.Proofs.Exchange.Record
import DeadDrop.Proofs.Secret.Id

/-!
Ids and their texts. Every id has one text and every canonical text is that of one id, in plain and
in JSON, and texts are ordered as ids are: digits are ordered as the numbers they stand for, all
texts have their dashes in the same places, and the first octet in which two ids differ is the first
pair of digits in which their texts do. An id that is drawn keeps all bits of the random octets but
those of its version and its variant.
-/

namespace DeadDrop

open Text.Utf8 (encode bytes encode_append encode_cons)

section Order

variable {left right : Bytes}

theorem Bytes.append_lt_append_iff {front other back behind : Bytes}
    (size : front.length = other.length) :
    front ++ back < other ++ behind ↔ front < other ∨ front = other ∧ back < behind := by
  induction front generalizing other with
  | nil =>
      obtain rfl := List.eq_nil_of_length_eq_zero size.symm
      simp
  | cons octet rest ih =>
      cases other with
      | nil => cases size
      | cons octet' rest' =>
          rw [List.cons_append, List.cons_append, List.cons_lt_cons_iff, List.cons_lt_cons_iff,
            ih (Nat.succ_inj.mp size), List.cons.injEq]
          by_cases same : octet = octet' <;> simp [same]

namespace Hex

open Json (hexOctet octetValue_hexOctet)

theorem encode_encode_cons (octet : UInt8) (rest : Bytes) :
    Text.Utf8.encode (encode (octet :: rest)) =
      hexOctet (octet.toNat / 16) :: hexOctet (octet.toNat % 16) ::
        Text.Utf8.encode (encode rest) := by
  have small := octet.toNat_lt
  have high := (octetValue_hexOctet (octet.toNat / 16) (by omega)).2
  have low := (octetValue_hexOctet (octet.toNat % 16) (by omega)).2
  have digits : encode (octet :: rest) =
      digit (octet.toNat / 16) :: digit (octet.toNat % 16) :: encode rest := rfl
  rw [digits, encode_cons, encode_cons, high, low]
  rfl

theorem hexOctet_order : ∀ left < 16, ∀ right < 16,
    (hexOctet left < hexOctet right ↔ left < right) ∧
      (hexOctet left = hexOctet right ↔ left = right) := by
  decide

theorem digits_lt_iff (octet octet' : UInt8) (later : Prop) :
    (hexOctet (octet.toNat / 16) < hexOctet (octet'.toNat / 16) ∨
        hexOctet (octet.toNat / 16) = hexOctet (octet'.toNat / 16) ∧
          (hexOctet (octet.toNat % 16) < hexOctet (octet'.toNat % 16) ∨
            hexOctet (octet.toNat % 16) = hexOctet (octet'.toNat % 16) ∧ later)) ↔
      octet < octet' ∨ octet = octet' ∧ later := by
  have small := octet.toNat_lt
  have small' := octet'.toNat_lt
  have high := hexOctet_order (octet.toNat / 16) (by omega) (octet'.toNat / 16) (by omega)
  have low := hexOctet_order (octet.toNat % 16) (by omega) (octet'.toNat % 16) (by omega)
  rw [high.1, high.2, low.1, low.2, UInt8.lt_iff_toNat_lt, ← UInt8.toNat_inj]
  by_cases last : later
  · simp only [last, and_true]
    omega
  · simp only [last, and_false, or_false]
    omega

theorem encode_lt_iff (size : left.length = right.length) :
    Text.Utf8.encode (encode left) < Text.Utf8.encode (encode right) ↔ left < right := by
  induction left generalizing right with
  | nil =>
      obtain rfl := List.eq_nil_of_length_eq_zero size.symm
      exact ⟨fun less => absurd less (List.lt_irrefl _), fun less => absurd less (List.lt_irrefl _)⟩
  | cons octet rest ih =>
      cases right with
      | nil => cases size
      | cons octet' rest' =>
          rw [encode_encode_cons, encode_encode_cons, List.cons_lt_cons_iff,
            List.cons_lt_cons_iff, ih (Nat.succ_inj.mp size), digits_lt_iff,
            List.cons_lt_cons_iff]

theorem length_encode_encode (bytes : Bytes) :
    (Text.Utf8.encode (encode bytes)).length = 2 * bytes.length := by
  induction bytes with
  | nil => rfl
  | cons octet rest ih =>
      rw [encode_encode_cons, List.length_cons, List.length_cons, ih, List.length_cons]
      omega

theorem encode_inj : Text.Utf8.encode (encode left) = Text.Utf8.encode (encode right) ↔
    left = right := by
  constructor
  · intro same
    have digits := congrArg Text.Utf8.decode? same
    rw [Text.Utf8.decode_encode, Text.Utf8.decode_encode, Option.some_inj] at digits
    have octets := congrArg decode? digits
    rwa [decode?_encode, decode?_encode, Option.some_inj] at octets
  · rintro rfl
    rfl

end Hex

namespace SecretId

theorem writeGroups_lt_iff {start : Nat} {sizes : List Nat} (size : left.length = right.length)
    (spaced : Spaced start sizes left.length) :
    encode (writeGroups sizes left) < encode (writeGroups sizes right) ↔ left < right := by
  induction sizes generalizing start left right with
  | nil => exact Hex.encode_lt_iff size
  | cons count sizes ih =>
      obtain ⟨fits, -, -, others⟩ := spaced
      have shape (whole : Bytes) : encode (writeGroups (count :: sizes) whole) =
          encode (Hex.encode (whole.take count)) ++
            0x2D :: encode (writeGroups sizes (whole.drop count)) := by
        rw [writeGroups, encode_append, encode_cons]
        rfl
      have fronts : (left.take count).length = (right.take count).length := by
        rw [List.length_take, List.length_take, size]
      have backs : (left.drop count).length = (right.drop count).length := by
        rw [List.length_drop, List.length_drop, size]
      have widths : (encode (Hex.encode (left.take count))).length =
          (encode (Hex.encode (right.take count))).length := by
        rw [Hex.length_encode_encode, Hex.length_encode_encode, fronts]
      have cut : left < right ↔ left.take count < right.take count ∨
          left.take count = right.take count ∧ left.drop count < right.drop count := by
        rw [← Bytes.append_lt_append_iff fronts, List.take_append_drop, List.take_append_drop]
      rw [← List.length_drop] at others
      rw [shape, shape, Bytes.append_lt_append_iff widths, Hex.encode_lt_iff fronts,
        Hex.encode_inj, List.cons_lt_cons_iff, ih backs others, cut]
      simp

theorem bytes_text (id : SecretId) : bytes id.text = encode id.write := bytes_ofList id.write

theorem lt_iff_bytes_lt (left right : SecretId) :
    left < right ↔ bytes left.text < bytes right.text := by
  have size : left.octets.val.length = right.octets.val.length := by
    rw [left.octets.property, right.octets.property]
  have spaced : Spaced 0 groups left.octets.val.length := by
    rw [left.octets.property]
    exact groups_spaced
  rw [bytes_text, bytes_text]
  exact (writeGroups_lt_iff size spaced).symm

end SecretId

end Order

namespace SecretId

section Octets

variable {c : Char} {octet : UInt8} {octets : Bytes} {position : Nat}

def isCanonicalOctetAt (position : Nat) (octet : UInt8) : Bool :=
  if isDash position then octet = 0x2D
  else (0x30 ≤ octet && octet ≤ 0x39) || (0x61 ≤ octet && octet ≤ 0x66)

def areCanonicalOctets (octets : Bytes) : Bool :=
  octets.length = textLength &&
    octets.zipIdx.all fun (octet, position) => isCanonicalOctetAt position octet

theorem isCanonicalOctetAt_ascii (ascii : c.toNat < 0x80) (position : Nat) :
    isCanonicalOctetAt position (UInt8.ofNat c.toNat) = isCanonicalAt position c := by
  have value : (UInt8.ofNat c.toNat).toNat = c.toNat := Text.Utf8.toNat_octet (by omega)
  have dash : UInt8.ofNat c.toNat = 0x2D ↔ c = '-' := by
    rw [← UInt8.toNat_inj, value]
    exact Char.toNat_inj (d := '-')
  have digit : ((0x30 ≤ UInt8.ofNat c.toNat && UInt8.ofNat c.toNat ≤ 0x39) ||
      (0x61 ≤ UInt8.ofNat c.toNat && UInt8.ofNat c.toNat ≤ 0x66)) = isLowerHex c := by
    rw [Bool.eq_iff_iff]
    simp only [isLowerHex, Bool.or_eq_true, Bool.and_eq_true, decide_eq_true_eq,
      UInt8.le_iff_toNat_le, value]
    exact Iff.rfl
  simp only [isCanonicalOctetAt, isCanonicalAt, dash, digit]

theorem small_of_isCanonicalOctetAt (canonical : isCanonicalOctetAt position octet = true) :
    octet.toNat < 0x80 := by
  unfold isCanonicalOctetAt at canonical
  split at canonical
  · rw [of_decide_eq_true canonical]
    decide
  · simp only [Bool.or_eq_true, Bool.and_eq_true, decide_eq_true_eq, UInt8.le_iff_toNat_le]
      at canonical
    rcases canonical with ⟨-, most⟩ | ⟨-, most⟩
    · exact Nat.lt_of_le_of_lt most (by decide)
    · exact Nat.lt_of_le_of_lt most (by decide)

theorem small_of_areCanonicalOctets (canonical : areCanonicalOctets octets = true) :
    ∀ octet ∈ octets, octet.toNat < 0x80 := by
  intro octet member
  rw [areCanonicalOctets, Bool.and_eq_true, List.all_eq_true] at canonical
  obtain ⟨position, inside, rfl⟩ := List.getElem_of_mem member
  exact small_of_isCanonicalOctetAt (canonical.2 (octets[position], position)
    (List.mk_mem_zipIdx_iff_getElem?.mpr (List.getElem?_eq_getElem inside)))

theorem ascii_of_areCanonical {chars : List Char} (canonical : areCanonical chars = true) :
    ∀ c ∈ chars, c.toNat < 0x80 := by
  obtain ⟨id, rfl⟩ := exists_write canonical
  exact forall_mem_write (by decide) (by decide) id

/-- A text is canonical if its octets are. -/
theorem isCanonical_eq_octets (text : String) :
    isCanonical text = areCanonicalOctets (bytes text) := by
  by_cases ascii : ∀ c ∈ text.toList, c.toNat < 0x80
  · rw [isCanonical, areCanonical, areCanonicalOctets, bytes, Text.Utf8.encode_of_ascii ascii,
      List.length_map, List.zipIdx_map, List.all_map]
    congr 1
    rw [Bool.eq_iff_iff, List.all_eq_true, List.all_eq_true]
    refine forall₂_congr fun pair member => ?_
    have small := ascii pair.1 (List.fst_mem_of_mem_zipIdx member)
    simp [isCanonicalOctetAt_ascii small]
  · have text' : isCanonical text = false :=
      eq_false_of_ne_true fun canonical => ascii (ascii_of_areCanonical canonical)
    have octets : areCanonicalOctets (bytes text) = false := by
      apply eq_false_of_ne_true
      intro canonical
      simp only [not_forall] at ascii
      obtain ⟨c, member, large⟩ := ascii
      obtain ⟨octet, among, past⟩ := Text.Utf8.exists_large_octet large
      exact past (small_of_areCanonicalOctets canonical octet
        (List.mem_flatMap.mpr ⟨c, member, among⟩))
    rw [text', octets]

end Octets

section Stamps

/-- Bits of the version and of the variant, counted from the front. -/
def isStamped (bit : Nat) : Bool := (48 ≤ bit && bit < 52) || (64 ≤ bit && bit < 66)

def variant (id : SecretId) : Nat := (id.octets.val.getD 8 0).toNat / 64

theorem testBit_stampAt (position : Nat) {place : Nat} (inside : place < 8) (octet : UInt8) :
    (stampAt position octet).toNat.testBit (7 - place) =
      if isStamped (8 * position + place) then (stampAt position 0).toNat.testBit (7 - place)
      else octet.toNat.testBit (7 - place) := by
  by_cases sixth : position = 6
  · subst sixth
    simp only [stampAt, if_true, UInt8.toNat_or, UInt8.toNat_and, Nat.testBit_or, Nat.testBit_and]
    generalize octet.toNat.testBit (7 - place) = drawn
    revert place drawn
    decide
  by_cases eighth : position = 8
  · subst eighth
    simp only [stampAt, if_neg sixth, if_true, UInt8.toNat_or, UInt8.toNat_and, Nat.testBit_or,
      Nat.testBit_and]
    generalize octet.toNat.testBit (7 - place) = drawn
    revert place drawn
    decide
  · have free : isStamped (8 * position + place) = false := by
      simp only [isStamped, Bool.or_eq_false_iff, Bool.and_eq_false_iff, decide_eq_false_iff_not]
      omega
    rw [stampAt, if_neg sixth, if_neg eighth, free, if_neg Bool.false_ne_true]

theorem getElem?_ofRandom (random : Sized 16) (position : Nat) :
    (ofRandom random).octets.val[position]? = random.val[position]?.map (stampAt position) :=
  List.getElem?_mapIdx

theorem getElem?_bits_ofRandom (random : Sized 16) {bit : Nat} (inside : bit < 128) :
    (ofRandom random).octets.val.bits[bit]? =
      if isStamped bit then (ofRandom (Sized.filled 16 0)).octets.val.bits[bit]?
      else random.val.bits[bit]? := by
  have within : bit / 8 < 16 := by omega
  have place : 8 * (bit / 8) + bit % 8 = bit := Nat.div_add_mod bit 8
  have blank : (Sized.filled 16 0).val[bit / 8]? = some 0 := by
    rw [Sized.filled, List.getElem?_replicate, if_pos within]
  obtain ⟨octet, found⟩ : ∃ octet, random.val[bit / 8]? = some octet :=
    ⟨_, List.getElem?_eq_getElem (random.property.symm ▸ within)⟩
  have drawn := testBit_stampAt (bit / 8) (Nat.mod_lt bit (by decide)) octet
  rw [place] at drawn
  simp only [Bytes.getElem?_bits, getElem?_ofRandom, found, blank, Option.map_some, drawn]
  split <;> rfl

theorem ofRandom_eq_iff (random other : Sized 16) :
    ofRandom random = ofRandom other ↔
      ∀ bit < 128, isStamped bit = false → random.val.bits[bit]? = other.val.bits[bit]? := by
  constructor
  · intro same bit inside free
    have bits := congrArg (fun id : SecretId => id.octets.val.bits[bit]?) same
    simpa [getElem?_bits_ofRandom _ inside, free] using bits
  · intro same
    have octets : (ofRandom random).octets.val = (ofRandom other).octets.val := by
      have size (id : SecretId) : id.octets.val.length = 16 := id.octets.property
      apply Bytes.bits_injective (by rw [size, size])
      apply List.ext_getElem?
      intro bit
      by_cases inside : bit < 128
      · rw [getElem?_bits_ofRandom random inside, getElem?_bits_ofRandom other inside]
        cases free : isStamped bit with
        | true => rfl
        | false => exact same bit inside free
      · have past (id : SecretId) : id.octets.val.bits[bit]? = none := by
          rw [List.getElem?_eq_none_iff, Bytes.length_bits, size]
          omega
        rw [past, past]
    exact SecretId.mk.injEq _ _ ▸ Subtype.ext octets

theorem getD_ofRandom (random : Sized 16) {position : Nat} (inside : position < 16) :
    ∃ octet, (ofRandom random).octets.val.getD position 0 = stampAt position octet := by
  have within : position < random.val.length := random.property.symm ▸ inside
  refine ⟨random.val[position], ?_⟩
  rw [List.getD_eq_getElem?_getD, getElem?_ofRandom, List.getElem?_eq_getElem within]
  rfl

theorem marked_high {mask mark : UInt8} {places : Nat} (cleared : mask.toNat >>> places = 0)
    (octet : UInt8) : ((octet &&& mask) ||| mark).toNat >>> places = mark.toNat >>> places := by
  rw [UInt8.toNat_or, UInt8.toNat_and, Nat.shiftRight_or_distrib, Nat.shiftRight_and_distrib,
    cleared, Nat.and_zero, Nat.zero_or]

theorem version_ofRandom (random : Sized 16) : version (ofRandom random) = 4 := by
  obtain ⟨octet, stamped⟩ := getD_ofRandom random (show 6 < 16 by decide)
  have cleared : (0x0F : UInt8).toNat >>> 4 = 0 := by decide
  rw [version, stamped]
  exact (Nat.shiftRight_eq_div_pow _ 4).symm.trans (marked_high cleared octet)

theorem variant_ofRandom (random : Sized 16) : variant (ofRandom random) = 2 := by
  obtain ⟨octet, stamped⟩ := getD_ofRandom random (show 8 < 16 by decide)
  have cleared : (0x3F : UInt8).toNat >>> 6 = 0 := by decide
  rw [variant, stamped]
  exact (Nat.shiftRight_eq_div_pow _ 6).symm.trans (marked_high cleared octet)

/-- Of the bits of an id, 122 are drawn. -/
theorem countP_isStamped : (List.range 128).countP (fun bit => !isStamped bit) = 122 := by
  cbv

end Stamps

end SecretId

namespace Exchange

open SecretId (ofText? isCanonical isSome_ofText? readHyphenated? version variant ofRandom
  isStamped areCanonicalOctets)

variable {text : String} {id : SecretId}

theorem text_of_ofText? (read : ofText? text = some id) : id.text = text := by
  have canonical : isCanonical text = true := by rw [← isSome_ofText?, read, Option.isSome_some]
  obtain ⟨same, written⟩ := SecretId.exists_write canonical
  rw [ofText?, ← written, SecretId.read?_write, Option.some_inj] at read
  rw [← read, SecretId.text, written, String.ofList_toList]

theorem parseId_eq_ok_iff : parseId text = .ok id ↔ id.text = text := by
  constructor
  · intro read
    unfold parseId at read
    split at read
    · next found =>
        cases read
        exact text_of_ofText? found
    · cases read
  · rintro rfl
    rw [parseId, SecretId.ofText?_text]

theorem isOk_parseId (text : String) : (parseId text).isOk = isCanonical text := by
  rw [← isSome_ofText?, parseId]
  cases ofText? text <;> rfl

theorem parseId_eq_error_iff {error : Error} :
    parseId text = .error error ↔ isCanonical text = false ∧ error = .secretId text := by
  rw [← isSome_ofText?, parseId]
  cases ofText? text with
  | none => simp [eq_comm]
  | some id => simp

theorem readHyphenated?_of_isCanonical (canonical : isCanonical text = true) :
    readHyphenated? text.toList ≠ none := by
  obtain ⟨id, written⟩ := SecretId.exists_write canonical
  rw [← written, SecretId.readHyphenated?_write]
  exact Option.some_ne_none id

theorem readEnd_eq_ok_iff {α : Type} {value result : α} {rest : Bytes} :
    Json.readEnd (value, rest) = .ok result ↔ value = result ∧ Json.skipBlanks rest = [] := by
  rw [Json.readEnd]
  cases Json.skipBlanks rest <;> simp

theorem decodeId_eq_ok_iff (octets : Bytes) :
    decodeId octets = .ok id ↔ (Json.readString octets >>= Json.readEnd) = .ok id.text := by
  unfold decodeId
  cases Json.readString octets with
  | error fault => exact ⟨nofun, nofun⟩
  | ok pair =>
      obtain ⟨text, rest⟩ := pair
      show _ ↔ Json.readEnd (text, rest) = .ok id.text
      rw [readEnd_eq_ok_iff]
      dsimp only
      cases found : ofText? text with
      | none =>
          refine ⟨nofun, ?_⟩
          rintro ⟨rfl, -⟩
          rw [SecretId.ofText?_text] at found
          cases found
      | some own =>
          have same : own = id ↔ text = id.text := by
            rw [← text_of_ofText? found]
            constructor
            · rintro rfl
              rfl
            · intro texts
              have read := SecretId.ofText?_text own
              rw [texts, SecretId.ofText?_text] at read
              exact (Option.some.inj read).symm
          rw [← same, ← readEnd_eq_ok_iff]
          dsimp only
          cases Json.readEnd (own, rest) <;> simp

theorem decodeId_writeText (text : String) :
    decodeId (encode (Json.writeText text)) =
      (parseId text).mapError fun error => .record error.message := by
  have read := Json.readString_writeText text []
  rw [List.append_nil] at read
  rw [decodeId, read, parseId]
  dsimp only
  cases ofText? text <;> rfl

theorem decodeId_encodeId (id : SecretId) : decodeId (bytes (encodeId id)) = .ok id := by
  rw [encodeId, bytes_ofList, decodeId_writeText, parseId_eq_ok_iff.mpr rfl]
  rfl

/-- An id is its text. The text is read back as the id, and texts are ordered as ids are. A text is
read exactly if it is canonical, by its characters or by its octets, and then it is the text of what
was read; a reader that takes more never refuses it. In JSON an id is what its text is. And an id
that is drawn has the version and the variant of such ids and is told from others by the 122 bits
that are left. -/
theorem ids_are_their_texts :
    (∀ id other : SecretId, parseId id.text = .ok id ∧
      (id < other ↔ bytes id.text < bytes other.text)) ∧
    (∀ text : String, isCanonical text = areCanonicalOctets (bytes text) ∧
      (parseId text).isOk = isCanonical text ∧
      (∀ id, parseId text = .ok id ↔ id.text = text) ∧
      (∀ error, parseId text = .error error ↔ isCanonical text = false ∧ error = .secretId text) ∧
      (isCanonical text = true → readHyphenated? text.toList ≠ none)) ∧
    (∀ id, decodeId (bytes (encodeId id)) = .ok id) ∧
    (∀ text, decodeId (encode (Json.writeText text)) =
      (parseId text).mapError fun error => .record error.message) ∧
    (∀ octets id, decodeId octets = .ok id ↔
      (Json.readString octets >>= Json.readEnd) = .ok id.text) ∧
    (∀ random other : Sized 16, version (ofRandom random) = 4 ∧ variant (ofRandom random) = 2 ∧
      (ofRandom random = ofRandom other ↔
        ∀ bit < 128, isStamped bit = false → random.val.bits[bit]? = other.val.bits[bit]?)) ∧
    (List.range 128).countP (fun bit => !isStamped bit) = 122 := by
  refine ⟨?ordered, ?texts, decodeId_encodeId, decodeId_writeText,
    fun octets id => decodeId_eq_ok_iff octets, ?drawn, SecretId.countP_isStamped⟩
  case ordered =>
    exact fun id other => ⟨parseId_eq_ok_iff.mpr rfl, SecretId.lt_iff_bytes_lt id other⟩
  case texts =>
    exact fun text => ⟨SecretId.isCanonical_eq_octets text, isOk_parseId text,
      fun id => parseId_eq_ok_iff, fun error => parseId_eq_error_iff,
      readHyphenated?_of_isCanonical⟩
  case drawn =>
    exact fun random other => ⟨SecretId.version_ofRandom random, SecretId.variant_ofRandom random,
      SecretId.ofRandom_eq_iff random other⟩

end Exchange

end DeadDrop
