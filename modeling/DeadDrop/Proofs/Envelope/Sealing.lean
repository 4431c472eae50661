import DeadDrop.Proofs.Envelope.RoundTrip
import DeadDrop.Proofs.Exchange.Size

/-!
What sealing hands on. The text is armor around octets that the reader takes apart again; its
characters are printable but for the ends of its lines, so no escape makes much more of it; and
there is a bound to what is put around a content.
-/

namespace DeadDrop

section Armor

namespace Armor

/-- Visible, or a blank, and a single octet. -/
def Printable (c : Char) : Prop := 0x20 ≤ c.toNat ∧ c.toNat < 0x80

instance (c : Char) : Decidable (Printable c) := inferInstanceAs (Decidable (_ ∧ _))

theorem Base64.length_encode_le (alphabet : Base64.Alphabet) (bytes : Bytes) :
    (Base64.encode alphabet bytes).length ≤ 4 * bytes.length := by
  rw [Base64.length_encode]
  omega

theorem printable_encode (octets : Bytes) : ∀ c ∈ Base64.encode .standard octets, Printable c := by
  have digits : ∀ value < 64, Printable (Base64.Alphabet.standard.digit value) := by decide +kernel
  intro c member
  rcases Base64.mem_encode member with rfl | ⟨value, small, rfl⟩
  · decide
  · exact digits value small

variable {headers : List (String × String)}

theorem printable_framed (octets : Bytes)
    (printable : ∀ header ∈ headers, ∀ c ∈ headerText header, Printable c) :
    ∀ line ∈ framed headers octets, ∀ c ∈ line, Printable c := by
  have groups : ∀ line ∈ (cut octets).map (Base64.encode .standard), ∀ c ∈ line, Printable c := by
    intro line member
    obtain ⟨group, -, rfl⟩ := List.mem_map.mp member
    exact printable_encode group
  have titles : ∀ line ∈ headers.map headerText, ∀ c ∈ line, Printable c := by
    intro line member
    obtain ⟨header, among, rfl⟩ := List.mem_map.mp member
    exact printable header among
  have checksum : ∀ c ∈ '=' :: Base64.encode .standard (Checksum.ofBytes octets).toBytes,
      Printable c := List.forall_mem_cons.mpr ⟨by decide, printable_encode _⟩
  have first : ∀ c ∈ beginLine, Printable c := Text.forall_of_all (by decide)
  have last : ∀ c ∈ endLine, Printable c := Text.forall_of_all (by decide)
  intro line member
  simp only [framed, List.mem_cons, List.mem_append, List.not_mem_nil, or_false] at member
  rcases member with rfl | title | rfl | group | rfl | rfl
  · exact first
  · exact titles line title
  · exact fun c inside => absurd inside List.not_mem_nil
  · exact groups line group
  · exact checksum
  · exact last

theorem length_cut_le (octets : Bytes) : (cut octets).length ≤ octets.length := by
  induction octets using cut.induct with
  | case1 => exact Nat.le_of_eq (congrArg List.length cut_nil)
  | case2 octets some ih =>
      have filled := List.length_pos_iff.mpr some
      have positive := lineOctets_pos
      rw [List.length_drop] at ih
      rw [cut_some some, List.length_cons]
      omega

theorem length_bodyLines_le (octets : Bytes) : (bodyLines octets).length ≤ 5 * octets.length := by
  have ends (groups : List Bytes) : (groups.flatMap bodyLine).length =
      (groups.flatMap (Base64.encode .standard)).length + groups.length := by
    induction groups with
    | nil => rfl
    | cons group others ih =>
        simp only [List.flatMap_cons, List.length_append, ih, bodyLine, List.length_cons,
          List.length_nil]
        omega
  have digits := Base64.length_encode_le .standard octets
  have lines := length_cut_le octets
  rw [bodyLines, ends, flatMap_encode_cut]
  omega

theorem length_closing_le (checksum : Checksum) : (closing checksum).length ≤ 40 := by
  have digits := Base64.length_encode_le .standard checksum.toBytes
  have width : checksum.toBytes.length = 3 := Bytes.length_ofNat 3 _
  have last : endLine.length = 25 := by decide
  simp only [closing, bodyLine, List.length_append, List.length_cons, List.length_nil, last]
  omega

theorem ascii_unlines {all : List Line} (printable : ∀ line ∈ all, ∀ c ∈ line, Printable c) :
    ∀ c ∈ unlines all, c.toNat < 0x80 := by
  intro c member
  obtain ⟨line, among, inside⟩ := List.mem_flatMap.mp member
  rcases List.mem_append.mp inside with shown | last
  · exact (printable line among c shown).2
  · rw [List.mem_singleton.mp last]
    decide

theorem length_encode_framed_le (octets : Bytes)
    (printable : ∀ header ∈ headers, ∀ c ∈ headerText header, Printable c) :
    (Text.Utf8.encode (unlines (framed headers octets))).length ≤
      (headers.flatMap headerLine).length + 5 * octets.length + 100 := by
  have body := length_bodyLines_le octets
  have close := length_closing_le (Checksum.ofBytes octets)
  have first : beginLine.length = 27 := by decide
  rw [Text.Utf8.length_encode_of_ascii (ascii_unlines (printable_framed octets printable)),
    unlines_framed]
  simp only [List.length_append, List.length_cons, List.length_nil, first]
  omega

end Armor

end Armor

namespace Envelope

def armoredText (octets : Bytes) : String :=
  String.ofList (Armor.unlines (Armor.framed [armorComment] octets))

section Texts

variable (octets : Bytes)

theorem printable_comment :
    ∀ header ∈ [armorComment], ∀ c ∈ Armor.headerText header, Armor.Printable c := by
  intro header member
  rw [List.mem_singleton.mp member]
  exact Text.forall_of_all (by decide +kernel)

theorem mild_armoredText : ∀ c ∈ (armoredText octets).toList, Json.Mild c := by
  intro c member
  rw [armoredText, String.toList_ofList] at member
  obtain ⟨line, among, inside⟩ := List.mem_flatMap.mp member
  rcases List.mem_append.mp inside with shown | last
  · exact .inl (Armor.printable_framed octets printable_comment line among c shown).1
  · exact .inr (List.mem_singleton.mp last)

theorem ascii_armoredText : ∀ c ∈ (armoredText octets).toList, c.toNat < 0x80 := by
  rw [armoredText, String.toList_ofList]
  exact Armor.ascii_unlines (Armor.printable_framed octets printable_comment)

theorem size_armoredText : (armoredText octets).utf8ByteSize ≤ 5 * octets.length + 200 := by
  have comment : ([armorComment].flatMap Armor.headerLine).length ≤ 100 := by decide +kernel
  have framed := Armor.length_encode_framed_le octets printable_comment
  rw [← Text.Utf8.length_bytes, Text.Utf8.bytes, armoredText, String.toList_ofList]
  omega

end Texts

section Lengths

theorem length_definiteLength_le (length : Nat) : (Packet.definiteLength length).length ≤ 5 := by
  rw [Packet.length_definiteLength]
  split
  · exact Nat.le_add_left 1 4
  · split
    · exact Nat.le_add_left 2 3
    · exact Nat.le_refl 5

theorem length_segments_le (body : Bytes) :
    (Packet.segments body).length ≤ 2 * body.length + 5 := by
  induction body using Packet.segments.induct with
  | case1 body long ih =>
      have chunk : Packet.chunkSize = 8192 := rfl
      rw [List.length_drop] at ih
      rw [Packet.segments_long long, List.length_cons, List.length_append, List.length_take]
      omega
  | case2 body short =>
      have first := length_definiteLength_le body.length
      rw [Packet.segments_short (Nat.le_of_not_lt short), List.length_append]
      omega

theorem length_sessionKeyPacket {passphrase : Bytes} {randomness : Randomness} {packet : Packet}
    (made : sessionKeyPacket passphrase randomness = .ok packet) : packet.body.length = 46 := by
  obtain ⟨key, derived⟩ := keyFor_ofLength sealCipher
    ((Specifier.standard randomness.salt).length_derive passphrase sealCipher.keySize)
  simp only [sessionKeyPacket, bind, Except.bind, pure, Except.pure] at made
  rw [derived] at made
  cases made
  simp [Specifier.standard, Specifier.write, randomness.sessionKey.property,
    randomness.salt.property]

variable (hints : Option Hints) (filler : Sized 16) (session : Packet)
  (key : Cipher.Key sealCipher)

theorem length_literalHeader_le : (literalHeader hints).length ≤ 261 := by
  cases hints with
  | none => decide
  | some hint =>
      simp only [literalHeader, List.length_cons, List.length_append, List.length_take,
        Bytes.length_ofNat]
      omega

theorem length_binary_le (content : Bytes) :
    (binary hints filler session key content).length ≤
      session.body.length + 4 * content.length + 1150 := by
  have literal := length_segments_le (literalHeader hints ++ content)
  have data := length_segments_le (dataBody hints filler key content)
  have first := length_definiteLength_le session.body.length
  have header := length_literalHeader_le hints
  have trailer : detectionLength = 22 := rfl
  have block : (fillerBlock filler).length = 18 := length_fillerBlock filler
  simp only [binary, dataBody, literalPacket, Packet.write, List.length_append, List.length_cons,
    length_protect] at *
  omega

end Lengths

section Own

theorem encryptWith_eq (randomness : Randomness) (hints : Option Hints) (key : String) :
    ∃ session : Packet, ∃ dataKey, session.tag = Packet.Tag.sessionKey ∧
      session.body.length = 46 ∧
      unlock session.body (Text.Utf8.bytes key) =
        .ok (some (sealCipher, randomness.sessionKey.val)) ∧
      keyFor sealCipher randomness.sessionKey.val = .ok dataKey ∧
      ∀ plaintext, encryptWith randomness hints key plaintext =
        if key.isEmpty then .error .emptyKey
        else match plaintext.failure with
          | some detail => .error (.io detail)
          | none => .ok (armoredText
              (binary hints randomness.filler session dataKey plaintext.contents)) := by
  obtain ⟨session, packed, tag, -, unlocked⟩ :=
    unlock_sessionKeyPacket (Text.Utf8.bytes key) randomness
  obtain ⟨dataKey, derived⟩ := keyFor_ofLength sealCipher randomness.sessionKey.property
  refine ⟨session, dataKey, tag, length_sessionKeyPacket packed, unlocked, derived, ?_⟩
  intro plaintext
  have written := machine_computes hints session dataKey randomness plaintext.reads
  unfold encryptWith
  by_cases empty : key.isEmpty
  · rw [if_pos empty, if_pos empty]
    rfl
  · rw [if_neg empty, if_neg empty, packed, derived]
    cases plaintext.failure with
    | some detail => rfl
    | none => exact congrArg (fun text => Except.ok (String.ofList text)) written

/-- Sealing succeeds, and the key shows the literal packet inside however the message is read. -/
theorem exists_revealed (randomness : Randomness) (hints : Option Hints) {key : String}
    (reads : List Bytes) (filled : key ≠ "") :
    ∃ octets, encryptWith randomness hints key ⟨reads, none⟩ = .ok (armoredText octets) ∧
      octets.length ≤ 4 * reads.flatten.length + 1200 ∧
      ∀ pieces : List Bytes, pieces.flatten = Text.Utf8.bytes (armoredText octets) →
        reveal ⟨pieces, none⟩ key = .ok (literalPacket hints reads.flatten) := by
  obtain ⟨session, dataKey, tag, size, unlocked, derived, answered⟩ :=
    encryptWith_eq randomness hints key
  have given : ¬ key.isEmpty := by
    simpa using filled
  have length := length_binary_le hints randomness.filler session dataKey reads.flatten
  refine ⟨binary hints randomness.filler session dataKey reads.flatten, ?_, by omega, ?_⟩
  · rw [answered, if_neg given]
    rfl
  · intro pieces whole
    have short : session.body.length < 256 ^ 4 := by omega
    rw [reveal, readMessage_armored _ whole, gather_binary reads.flatten tag short]
    exact trySessions_own reads.flatten unlocked derived

theorem exists_sealed (randomness : Randomness) (hints : Option Hints) {key : String}
    (reads : List Bytes) (filled : key ≠ "") (fits : ∀ hint, hints = some hint → hint.Fits) :
    ∃ octets, encryptWith randomness hints key ⟨reads, none⟩ = .ok (armoredText octets) ∧
      octets.length ≤ 4 * reads.flatten.length + 1200 ∧
      decrypt (.ofBytes (Text.Utf8.bytes (armoredText octets))) key =
        some (.ok ⟨reads.flatten, hints.map Hints.filename⟩) := by
  obtain ⟨octets, made, length, revealed⟩ := exists_revealed randomness hints reads filled
  refine ⟨octets, made, length, ?_⟩
  rw [decrypt, decryptWithin, Source.ofBytes, revealed _ List.flatten_singleton]
  exact look_literal _ _ reads.flatten fits

end Own

end Envelope

end DeadDrop
