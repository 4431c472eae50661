import DeadDrop.Proofs.Armor.Frame
import DeadDrop.Proofs.Envelope.Layers

/-!
A sealed message opens with its key and gives back what was sealed, at any length and in whatever
reads it came. The machine that seals computes one function of the content; the reader takes its
layers off one after the other.
-/

namespace DeadDrop.Envelope

open Cipher (Feedback)

section Sealing

variable (hints : Option Hints) (filler : Sized 16) (session : Packet)
  (key : Cipher.Key sealCipher)

def literalPacket (content : Bytes) : Bytes :=
  (0xC0 ||| Packet.Tag.literal) :: Packet.segments (literalHeader hints ++ content)

def dataBody (content : Bytes) : Bytes :=
  dataVersion :: protect key.block (fillerBlock filler ++ literalPacket hints content)

/-- The message without its armor. -/
def binary (content : Bytes) : Bytes :=
  session.write ++
    (0xC0 ||| Packet.Tag.protectedData) :: Packet.segments (dataBody hints filler key content)

theorem machine_computes (randomness : Randomness) :
    (machine hints randomness session key).Computes fun content =>
      Armor.unlines (Armor.framed [armorComment]
        (binary hints randomness.filler session key content)) := by
  have literal := (Packet.partialWriter_computes Packet.Tag.literal).preceded (literalHeader hints)
  have stream := (protector_computes key.block).preceded (fillerBlock randomness.filler)
  have data := (Packet.partialWriter_computes Packet.Tag.protectedData).preceded [dataVersion]
  have armor := (Armor.writer_computes [armorComment]).preceded session.write
  exact ((literal.into stream).into data).into armor

end Sealing

section Opening

variable {hints : Option Hints} {filler : Sized 16} {session : Packet}
  {key : Cipher.Key sealCipher}

theorem tidy_armorComment : Armor.Tidy (Armor.headerText armorComment) :=
  ⟨by decide +kernel, by decide +kernel⟩

theorem readMessage_armored {pieces : List Bytes} (octets : Bytes)
    (whole : pieces.flatten = Text.Utf8.bytes
      (String.ofList (Armor.unlines (Armor.framed [armorComment] octets)))) :
    readMessage ⟨pieces, none⟩ = Packet.readAll octets >>= gather [] := by
  have text : Text.Utf8.decode? (Source.contents ⟨pieces, none⟩) =
      some (Armor.unlines (Armor.framed [armorComment] octets)) := by
    rw [Source.contents, whole, Text.Utf8.decode_bytes, String.toList_ofList]
  have tidy : ∀ header ∈ [armorComment], Armor.Tidy (Armor.headerText header) := by
    intro header member
    rw [List.mem_singleton.mp member]
    exact tidy_armorComment
  rw [readMessage]
  simp only [text, Armor.decode_written octets tidy]

theorem gather_binary (content : Bytes) (tag : session.tag = Packet.Tag.sessionKey)
    (fits : session.body.length < 256 ^ 4) :
    Packet.readAll (binary hints filler session key content) >>= gather [] =
      .ok ⟨[session.body], dataBody hints filler key content⟩ := by
  have small : session.tag < 64 := by
    rw [tag]
    decide
  have read := Packet.readAll_pair (Packet.encodes_write small fits)
    (Packet.encodes_segments (by decide : Packet.Tag.protectedData < 64)
      (dataBody hints filler key content))
  rw [binary, read]
  simp [gather, tag, bind, Except.bind, Packet.Tag.sessionKey, Packet.Tag.protectedData]

theorem trySessions_own {passphrase sessionKey : Bytes} (content : Bytes)
    (unlocked : unlock session.body passphrase = .ok (some (sealCipher, sessionKey)))
    (fits : keyFor sealCipher sessionKey = .ok key) :
    trySessions (dataBody hints filler key content) (.new passphrase) [session.body] =
      .ok (literalPacket hints content) := by
  have opened := openProtected_protect filler (literalPacket hints content) fits
  simp [trySessions, OneShotKey.new, OneShotKey.provide, unlocked, dataBody, opened, bind,
    Except.bind, pure, Except.pure]

end Opening

/-- Sealing under a key that is not empty succeeds, and opening with that key gives back the
content, and the file name if there was one. -/
theorem decrypt_encryptWith (randomness : Randomness) (hints : Option Hints) (key : String)
    (reads : List Bytes) (some : key ≠ "") (fits : ∀ hint, hints = .some hint → hint.Fits) :
    ∃ armored, encryptWith randomness hints key ⟨reads, none⟩ = .ok armored ∧
      ∀ pieces : List Bytes, pieces.flatten = Text.Utf8.bytes armored →
        decrypt ⟨pieces, none⟩ key =
          .some (.ok ⟨reads.flatten, hints.map Hints.filename⟩) := by
  obtain ⟨session, made, tag, short, unlocked⟩ :=
    unlock_sessionKeyPacket (Text.Utf8.bytes key) randomness
  obtain ⟨dataKey, derived⟩ := keyFor_ofLength sealCipher randomness.sessionKey.property
  have filled : key.isEmpty = false := by
    simpa using some
  have written := machine_computes hints session dataKey randomness reads
  refine ⟨String.ofList (Armor.unlines (Armor.framed [armorComment]
    (binary hints randomness.filler session dataKey reads.flatten))), ?_, ?_⟩
  · simp [encryptWith, filled, made, derived, written, bind, Except.bind, pure, Except.pure]
  · intro pieces whole
    have revealed : reveal ⟨pieces, none⟩ key = .ok (literalPacket hints reads.flatten) := by
      rw [reveal, readMessage_armored _ whole, gather_binary reads.flatten tag short]
      exact trySessions_own reads.flatten unlocked derived
    rw [decrypt, decryptWithin, revealed]
    exact look_literal _ _ reads.flatten fits

theorem file_comes_back :
    ∃ armored, encryptWith ⟨Sized.filled 8 1, Sized.filled 32 2, Sized.filled 16 3⟩
        (some ⟨"note.txt", 0⟩) "key" ⟨[[104], [105]], none⟩ = .ok armored ∧
      decrypt (.ofBytes (Text.Utf8.bytes armored)) "key" =
        some (.ok ⟨[104, 105], some "note.txt"⟩) := by
  have filled : "key" ≠ "" := by decide
  have fits : ∀ hint, some (Hints.mk "note.txt" 0) = some hint → hint.Fits := by
    intro hint same
    cases same
    unfold Hints.Fits
    decide +kernel
  obtain ⟨armored, made, opens⟩ := decrypt_encryptWith
    ⟨Sized.filled 8 1, Sized.filled 32 2, Sized.filled 16 3⟩ (some ⟨"note.txt", 0⟩) "key"
    [[104], [105]] filled fits
  exact ⟨armored, made, opens [Text.Utf8.bytes armored] (by simp)⟩

end DeadDrop.Envelope
