import DeadDrop.Proofs.Armor.Truncation
import DeadDrop.Proofs.Envelope.Opening
import DeadDrop.Proofs.Envelope.Sealing
import DeadDrop.Proofs.Packet.Truncation

/-!
Messages that break off. The armor of a sealed message says where it ends, and both its packets say
how long they are. So a part of the text is no message, unless it lacks the last line feed only,
and a part of the octets put into armor again is malformed. The key is not looked at in either case.
-/

namespace DeadDrop

theorem Text.Utf8.part_encode_of_ascii {chars : List Char} {part : Bytes}
    (ascii : ∀ c ∈ chars, c.toNat < 0x80) (cut : part <+: encode chars) :
    ∃ front, front <+: chars ∧ part = encode front := by
  induction chars generalizing part with
  | nil => exact ⟨[], List.prefix_refl [], List.prefix_nil.mp cut⟩
  | cons c rest ih =>
      obtain ⟨here, later⟩ := List.forall_mem_cons.mp ascii
      have single := utf8EncodeChar_of_ascii here
      rw [encode_cons, single] at cut
      cases part with
      | nil => exact ⟨[], List.nil_prefix, rfl⟩
      | cons first others =>
          obtain ⟨rfl, cut'⟩ := List.cons_prefix_cons.mp cut
          obtain ⟨front, before, rfl⟩ := ih later cut'
          refine ⟨c :: front, (List.prefix_cons_inj c).mpr before, ?_⟩
          rw [encode_cons, single]
          rfl

namespace Envelope

section Reading

variable {source : Source} {chars : List Char} {octets : Bytes} {key : String}

theorem gather_announced {packets : List Packet} (gathered : List Bytes)
    (announced : ∀ packet ∈ packets, Announces packet) :
    gather gathered packets = .error (.malformed .noEncryptedData) := by
  induction packets generalizing gathered with
  | nil => rfl
  | cons packet rest ih =>
      obtain ⟨here, later⟩ := List.forall_mem_cons.mp announced
      rcases here with tag | tag
      · rw [gather, if_pos tag]
        exact ih _ later
      · rw [gather, tag, if_neg (by decide), if_neg (by decide), if_neg (by decide), if_pos rfl]
        exact ih _ later

theorem readMessage_unarmored (text : source.contents = Text.Utf8.encode chars)
    (nothing : Armor.decode? chars = none) : readMessage source = .error .invalidMessage := by
  rw [readMessage, text, Text.Utf8.decode_encode]
  cases source.failure with
  | some detail => rfl
  | none => simp only [nothing]

theorem readMessage_rearmored (whole : source.failure = none)
    (text : source.contents = Text.Utf8.encode chars)
    (armored : Armor.decode? chars = some octets) :
    readMessage source = Packet.readAll octets >>= gather [] := by
  rw [readMessage, whole, text, Text.Utf8.decode_encode]
  simp only [armored]

theorem decrypt_of_unread {error : Error} (unread : readMessage source = .error error) :
    decrypt source key = some (.error error) := by
  rw [decrypt, decryptWithin, reveal, unread]
  rfl

end Reading

section Sealed

variable {randomness : Randomness} {hints : Option Hints} {session : Packet}
  {dataKey : Cipher.Key sealCipher} {content : Bytes}

/-- The packets of a sealed message, each with its octets. -/
def sealedParts (hints : Option Hints) (filler : Sized 16) (session : Packet)
    (dataKey : Cipher.Key sealCipher) (content : Bytes) : List (Bytes × Packet) :=
  [(session.write, session),
    ((0xC0 ||| Packet.Tag.protectedData) ::
      Packet.segments (dataBody hints filler dataKey content),
      ⟨Packet.Tag.protectedData, dataBody hints filler dataKey content⟩)]

theorem flatMap_sealedParts (filler : Sized 16) :
    (sealedParts hints filler session dataKey content).flatMap Prod.fst =
      binary hints filler session dataKey content := by
  simp [sealedParts, binary]

theorem gather_part {filler : Sized 16} {part : Bytes} (tag : session.tag = Packet.Tag.sessionKey)
    (fits : session.body.length < 256 ^ 4)
    (cut : part <+: binary hints filler session dataKey content)
    (short : part ≠ binary hints filler session dataKey content) :
    ∃ defect, Packet.readAll part >>= gather [] = .error (.malformed defect) := by
  have written : ∀ part ∈ sealedParts hints filler session dataKey content,
      Packet.Delimited part.2 part.1 := by
    have small : session.tag < 64 := by
      rw [tag]
      decide
    intro part member
    simp only [sealedParts, List.mem_cons, List.not_mem_nil, or_false] at member
    rcases member with rfl | rfl
    · exact Packet.delimited_write small fits
    · exact Packet.delimited_segments (by decide) _
  rw [← flatMap_sealedParts] at cut short
  rcases Packet.readAll_part written cut short with
    ⟨count, before, -, read⟩ | ⟨defect, failed⟩
  · have few : count ≤ 1 := Nat.le_of_lt_succ before
    have announced : ∀ packet ∈ ((sealedParts hints filler session dataKey content).take
        count).map Prod.snd, Announces packet := by
      intro packet member
      have first : packet ∈ [session] :=
        ((List.take_prefix_take_left few).map Prod.snd).subset member
      rw [List.mem_singleton.mp first]
      exact .inl tag
    exact ⟨.noEncryptedData, by rw [read]; exact gather_announced [] announced⟩
  · exact ⟨defect, by rw [failed]; rfl⟩

/-- Whatever sealing hands on is armor around a session key packet and protected data. -/
theorem sealed_of_encryptWith {key armored : String} {plaintext : Source}
    (made : encryptWith randomness hints key plaintext = .ok armored) :
    ∃ session : Packet, ∃ dataKey, session.tag = Packet.Tag.sessionKey ∧
      session.body.length < 256 ^ 4 ∧ armored =
        armoredText (binary hints randomness.filler session dataKey plaintext.contents) := by
  obtain ⟨session, dataKey, tag, size, -, -, answered⟩ := encryptWith_eq randomness hints key
  refine ⟨session, dataKey, tag, by omega, ?_⟩
  rw [answered] at made
  split at made
  · cases made
  · split at made
    · cases made
    · exact (Except.ok.inj made).symm

theorem tidy_comment : ∀ header ∈ [armorComment], Armor.Tidy (Armor.headerText header) := by
  intro header member
  rw [List.mem_singleton.mp member]
  exact tidy_armorComment

theorem decode_armoredText (octets : Bytes) :
    Armor.decode? (armoredText octets).toList = some octets := by
  rw [armoredText, String.toList_ofList]
  exact Armor.decode_written octets tidy_comment

theorem decode_part_armoredText {octets : Bytes} {part : List Char}
    (cut : part <+: (armoredText octets).toList)
    (short : part.length + 1 < (armoredText octets).toList.length) :
    Armor.decode? part = none := by
  have apart : ∀ header ∈ [armorComment], ¬ Armor.endLine <+: Armor.headerText header := by
    decide +kernel
  rw [armoredText, String.toList_ofList] at cut short
  exact Armor.decode_part (fun header member => (tidy_comment header member).clean) apart cut short

end Sealed

/-- A sealed message that broke off is refused under every key. Its text is no message, unless
only the last line feed is lacking; its octets, in armor with a checksum of their own, are
malformed. -/
theorem truncation_is_detected {randomness : Randomness} {hints : Option Hints}
    {key armored : String} {plaintext : Source}
    (made : encryptWith randomness hints key plaintext = .ok armored) (other : String) :
    (∀ cut : Source, cut.contents <+: Text.Utf8.bytes armored →
        cut.contents.length + 1 < (Text.Utf8.bytes armored).length →
        decrypt cut other = some (.error .invalidMessage)) ∧
      ∃ octets, Armor.decode? armored.toList = some octets ∧
        ∀ (cut : Source) (headers : List (String × String)) (chunks : List Bytes),
          (∀ header ∈ headers, Armor.Fit header) →
          chunks.flatten <+: octets → chunks.flatten ≠ octets → cut.failure = none →
          cut.contents = Text.Utf8.bytes (String.ofList (Armor.write headers chunks)) →
          ∃ defect, decrypt cut other = some (.error (.malformed defect)) := by
  obtain ⟨session, dataKey, tag, fits, rfl⟩ := sealed_of_encryptWith made
  constructor
  · intro cut before short
    have ascii := ascii_armoredText
      (binary hints randomness.filler session dataKey plaintext.contents)
    rw [Text.Utf8.bytes] at before short
    obtain ⟨front, inside, text⟩ := Text.Utf8.part_encode_of_ascii ascii before
    have single : ∀ c ∈ front, c.toNat < 0x80 := fun c member => ascii c (inside.subset member)
    rw [text, Text.Utf8.length_encode_of_ascii single,
      Text.Utf8.length_encode_of_ascii ascii] at short
    exact decrypt_of_unread (readMessage_unarmored text (decode_part_armoredText inside short))
  · refine ⟨_, decode_armoredText _, ?_⟩
    intro cut headers chunks fit before short whole text
    obtain ⟨defect, failed⟩ := gather_part tag fits before short
    have read : Armor.decode? (Armor.write headers chunks) = some chunks.flatten := by
      have written : Armor.write headers chunks =
        Armor.unlines (Armor.framed headers chunks.flatten) := Armor.writer_computes headers chunks
      rw [written]
      exact Armor.decode_fit _ fit
    rw [Text.Utf8.bytes, String.toList_ofList] at text
    have message := readMessage_rearmored whole text read
    exact ⟨defect, decrypt_of_unread (message.trans failed)⟩

theorem two_le_length_armoredText (octets : Bytes) :
    2 ≤ (Text.Utf8.bytes (armoredText octets)).length := by
  rw [Text.Utf8.bytes, Text.Utf8.length_encode_of_ascii (ascii_armoredText _), armoredText,
    String.toList_ofList, Armor.unlines_framed]
  simp only [List.length_append, List.length_singleton]
  omega

theorem cut_note_is_refused :
    ∃ session dataKey, ∃ octets : Bytes,
      octets = binary none (Sized.filled 16 3) session dataKey [104, 105] ∧
      encryptWith ⟨Sized.filled 8 1, Sized.filled 32 2, Sized.filled 16 3⟩ none "key"
        (.ofBytes [104, 105]) = .ok (armoredText octets) ∧
      decrypt (.ofBytes (Text.Utf8.bytes (armoredText octets)).dropLast.dropLast) "other" =
        some (.error .invalidMessage) ∧
      ∃ defect, decrypt (.ofBytes (Text.Utf8.bytes (String.ofList
        (Armor.write [] [session.write])))) "other" = some (.error (.malformed defect)) := by
  obtain ⟨session, dataKey, -, -, -, -, answered⟩ :=
    encryptWith_eq ⟨Sized.filled 8 1, Sized.filled 32 2, Sized.filled 16 3⟩ none "key"
  have given : ¬ "key".isEmpty := by decide
  have made : encryptWith ⟨Sized.filled 8 1, Sized.filled 32 2, Sized.filled 16 3⟩ none "key"
      (.ofBytes [104, 105]) =
        .ok (armoredText (binary none (Sized.filled 16 3) session dataKey [104, 105])) :=
    (answered (.ofBytes [104, 105])).trans (if_neg given)
  refine ⟨session, dataKey, _, rfl, made, ?_⟩
  obtain ⟨text, octets, decoded, parts⟩ := truncation_is_detected made "other"
  have same := Option.some.inj (decoded.symm.trans (decode_armoredText _))
  subst same
  constructor
  · apply text
    · rw [Source.ofBytes, Source.contents, List.flatten_singleton]
      exact (List.dropLast_prefix _).trans (List.dropLast_prefix _)
    · have long := two_le_length_armoredText (binary none (Sized.filled 16 3) session dataKey
        [104, 105])
      rw [Source.ofBytes, Source.contents, List.flatten_singleton, List.length_dropLast,
        List.length_dropLast]
      omega
  · apply parts (.ofBytes _) [] [session.write] (fun _ member => absurd member List.not_mem_nil)
    · rw [List.flatten_singleton]
      exact List.prefix_append _ _
    · intro same
      rw [List.flatten_singleton, binary] at same
      exact List.cons_ne_nil _ _ (List.self_eq_append_right.mp same)
    · rfl
    · exact List.flatten_singleton

end Envelope

end DeadDrop
