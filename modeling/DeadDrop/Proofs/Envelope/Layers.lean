import DeadDrop.Envelope.Open
import DeadDrop.Proofs.Cipher.Feedback
import DeadDrop.Proofs.Envelope.Specifier
import DeadDrop.Proofs.Packet.Framing
import DeadDrop.Proofs.Text.Utf8

/-!
The layers of a sealed message one by one: the session key under the passphrase, the protected
stream with its filler and digest, the literal packet. What sealing puts on, opening takes off. Of
the block function and of the digests nothing is used but the length of what they yield.
-/

namespace DeadDrop.Envelope

open Cipher (Feedback)
open Packet (Cursor)

section Session

theorem keyFor_ofLength (algorithm : Cipher.Algorithm) {bytes : Bytes}
    (fits : bytes.length = algorithm.keySize) :
    ∃ key : Cipher.Key algorithm, keyFor algorithm bytes = .ok key := by
  refine ⟨⟨bytes, fits⟩, ?_⟩
  rw [keyFor, Cipher.Key.ofBytes?, dif_pos fits]

theorem plausibleKey_own (algorithm : Cipher.Algorithm) {key : Bytes}
    (fits : key.length = algorithm.keySize) :
    plausibleKey (algorithm.number :: key) = some (algorithm, key) := by
  simp [plausibleKey, Cipher.Algorithm.ofNumber_number, fits]

theorem unlock_hidden {algorithm inner : Cipher.Algorithm} {specifier : Specifier}
    {passphrase sessionKey : Bytes} {key : Cipher.Key algorithm}
    (derived : keyFor algorithm (specifier.derive passphrase algorithm.keySize) = .ok key)
    (fits : sessionKey.length = inner.keySize) :
    unlock (sessionKeyVersion :: algorithm.number :: (specifier.write ++
      (Feedback.start.apply key.block .encrypt (inner.number :: sessionKey)).2)) passphrase =
        .ok (some (inner, sessionKey)) := by
  have shown := Feedback.decrypt_encrypt key.block Feedback.start (inner.number :: sessionKey)
  have length : (Feedback.start.apply key.block .encrypt (inner.number :: sessionKey)).2.length =
      sessionKey.length + 1 := by simp
  generalize (Feedback.start.apply key.block .encrypt (inner.number :: sessionKey)).2 = hidden
    at shown length
  have some : (Cursor.mk hidden).isEmpty = false := by
    cases hidden with
    | nil => simp at length
    | cons octet rest => rfl
  have named : cipherOf algorithm.number = .ok algorithm := by
    rw [cipherOf, Cipher.Algorithm.ofNumber_number]
  simp [unlock, named, Specifier.read_write, some, derived, shown, plausibleKey_own inner fits,
    bind, Except.bind, pure, Except.pure]

theorem unlock_sessionKeyPacket (passphrase : Bytes) (randomness : Randomness) :
    ∃ packet, sessionKeyPacket passphrase randomness = .ok packet ∧
      packet.tag = Packet.Tag.sessionKey ∧ packet.body.length < 256 ^ 4 ∧
      unlock packet.body passphrase = .ok (some (sealCipher, randomness.sessionKey.val)) := by
  let specifier := Specifier.standard randomness.salt
  obtain ⟨key, derived⟩ := keyFor_ofLength sealCipher
    (specifier.length_derive passphrase sealCipher.keySize)
  let hidden := (Feedback.start.apply key.block .encrypt
    (sealCipher.number :: randomness.sessionKey.val)).2
  refine ⟨⟨Packet.Tag.sessionKey,
    sessionKeyVersion :: sealCipher.number :: (specifier.write ++ hidden)⟩, ?_, rfl, ?_,
    unlock_hidden derived randomness.sessionKey.property⟩
  · simp only [sessionKeyPacket, bind, Except.bind, pure, Except.pure]
    rw [derived]
    rfl
  · simp [hidden, specifier, Specifier.standard, Specifier.write, randomness.sessionKey.property,
      randomness.salt.property]

end Session

section Protected

variable (block : Bytes → Bytes)

def authenticated (hashed : Bytes) : Bytes := hashed ++ Digest.sha1.ofBytes hashed

def protect (plain : Bytes) : Bytes :=
  (Feedback.start.apply block .encrypt (authenticated (plain ++ detectionHeader))).2

/-- What a state of the protector has still to send, for each rest of the stream. -/
def protectingAhead (state : Protecting) (rest : Bytes) : Bytes :=
  let hashed := rest ++ detectionHeader
  (state.stream.apply block .encrypt
    (hashed ++ Digest.sha1.finish (Digest.sha1.absorbAll state.seen hashed))).2

theorem protector_feed (state : Protecting) (chunk rest : Bytes) :
    protectingAhead block state (chunk ++ rest) =
      (state.stream.apply block .encrypt chunk).2 ++
        protectingAhead block ⟨(state.stream.apply block .encrypt chunk).1,
          Digest.sha1.absorbAll state.seen chunk⟩ rest := by
  simp only [protectingAhead, List.append_assoc, Feedback.apply_append, Digest.absorbAll_append]

theorem protector_close (state : Protecting) :
    protectingAhead block state [] = (protector block).close state := by
  simp only [protectingAhead, protector, List.nil_append, Feedback.apply_append]

theorem protector_computes : (protector block).Computes (protect block) :=
  (protector block).computes_of_ahead (fun _ => True) (protectingAhead block) trivial
    (fun _ _ _ => trivial) (fun state chunk rest _ => protector_feed block state chunk rest)
    (fun state _ => protector_close block state)

theorem length_sha1 (message : Bytes) : (Digest.sha1.ofBytes message).length = 20 :=
  Digest.length_ofBytes Digest.sha1 message

theorem length_fillerBlock (filler : Sized 16) : (fillerBlock filler).length = fillerLength := by
  simp [fillerBlock, filler.property, fillerLength]

theorem fillerBlock_repeats (filler : Sized 16) (rest : Bytes) :
    ((fillerBlock filler ++ rest).drop 14).take 2 =
      ((fillerBlock filler ++ rest).drop 16).take 2 := by
  obtain ⟨filler, size⟩ := filler
  have pair : (filler.drop 14).length = 2 := by
    rw [List.length_drop, size]
  have first : ((fillerBlock ⟨filler, size⟩ ++ rest).drop 14).take 2 = filler.drop 14 := by
    have inside : 14 ≤ filler.length := by omega
    rw [fillerBlock, List.append_assoc, List.drop_append_of_le_length inside, List.take_left' pair]
  have second : ((fillerBlock ⟨filler, size⟩ ++ rest).drop 16).take 2 = filler.drop 14 := by
    rw [fillerBlock, List.append_assoc, List.drop_left' size, List.take_left' pair]
  rw [first, second]

theorem verify_authenticated (filler : Sized 16) (inner : Bytes) :
    verify (authenticated (fillerBlock filler ++ inner ++ detectionHeader)) = .ok (some inner) := by
  -- The hashed octets get a name: the digest is cut off them before they are cut themselves.
  obtain ⟨hashed, shape⟩ : ∃ hashed, fillerBlock filler ++ inner ++ detectionHeader = hashed :=
    ⟨_, rfl⟩
  have size : hashed.length = (fillerBlock filler ++ inner).length + 2 := by
    rw [← shape, List.length_append]
    rfl
  have whole : (authenticated hashed).length = hashed.length + 20 := by
    rw [authenticated, List.length_append, length_sha1]
  have split : authenticated hashed =
      fillerBlock filler ++ inner ++ (detectionHeader ++ Digest.sha1.ofBytes hashed) := by
    rw [authenticated, ← List.append_assoc, shape]
  have repeats : ((authenticated hashed).drop 14).take 2 =
      ((authenticated hashed).drop 16).take 2 := by
    rw [split, List.append_assoc]
    exact fillerBlock_repeats filler _
  have front : (authenticated hashed).take ((authenticated hashed).length - 20) = hashed := by
    rw [whole, Nat.add_sub_cancel]
    exact List.take_left
  have back : (authenticated hashed).drop ((authenticated hashed).length - 20) =
      Digest.sha1.ofBytes hashed := by
    rw [whole, Nat.add_sub_cancel]
    exact List.drop_left
  have header : hashed.drop (hashed.length - 2) = detectionHeader := by
    rw [size, Nat.add_sub_cancel, ← shape]
    exact List.drop_left
  have between : ((authenticated hashed).take
      ((authenticated hashed).length - detectionLength)).drop fillerLength = inner := by
    have before : (authenticated hashed).length - detectionLength =
        (fillerBlock filler ++ inner).length := by
      rw [whole, size]
      rfl
    rw [before, split, List.take_left, List.drop_left' (length_fillerBlock filler)]
  rw [shape, verify, if_neg (not_not_intro repeats)]
  simp only [front, back, header, between, ne_eq, not_true_eq_false, or_self, if_false]

theorem length_protect (plain : Bytes) :
    (protect block plain).length = plain.length + detectionLength := by
  rw [protect, Feedback.length_apply, authenticated, List.length_append, length_sha1,
    List.length_append]
  rfl

theorem openProtected_protect {algorithm : Cipher.Algorithm} {key : Cipher.Key algorithm}
    {sessionKey : Bytes} (filler : Sized 16) (inner : Bytes)
    (fits : keyFor algorithm sessionKey = .ok key) :
    openProtected (dataVersion :: protect key.block (fillerBlock filler ++ inner)) algorithm
      sessionKey = .ok (some inner) := by
  have shown : (Feedback.start.apply key.block .decrypt
      (protect key.block (fillerBlock filler ++ inner))).2 =
        authenticated (fillerBlock filler ++ inner ++ detectionHeader) :=
    Feedback.decrypt_encrypt key.block Feedback.start _
  have long : ¬ (protect key.block (fillerBlock filler ++ inner)).length <
      fillerLength + detectionLength := by
    rw [length_protect, List.length_append, length_fillerBlock]
    omega
  simp only [openProtected, ne_eq, not_true_eq_false, if_false, if_neg long, fits, bind,
    Except.bind, shown, verify_authenticated]

end Protected

section Literal

/-- A name that its length octet can count. -/
def Hints.Fits (hints : Hints) : Prop := (Text.Utf8.bytes hints.filename).length ≤ 255

theorem readLiteral_fields (format : UInt8) {length : UInt8} {name time : Bytes} (content : Bytes)
    (size : name.length = length.toNat) (width : time.length = 4) :
    readLiteral (format :: length :: (name ++ (time ++ content))) =
      .ok ⟨content, if format = fileFormat then some (Text.Utf8.textLossy name) else none⟩ := by
  simp [readLiteral, Cursor.take_append (time ++ content) size, Cursor.take_append content width,
    bind, Except.bind, pure, Except.pure]

/-- What is read of a name that is cut to the octets its length octet can count. -/
def Hints.recovered (hints : Hints) : String :=
  Text.Utf8.textLossy ((Text.Utf8.bytes hints.filename).take 255)

theorem Hints.recovered_of_fits {hints : Hints} (fits : hints.Fits) :
    hints.recovered = hints.filename := by
  rw [recovered, List.take_of_length_le fits, Text.Utf8.textLossy_bytes]

theorem readLiteral_header (hints : Option Hints) (content : Bytes) :
    readLiteral (literalHeader hints ++ content) =
      .ok ⟨content, hints.map Hints.recovered⟩ := by
  cases hints with
  | none =>
      have read : readLiteral (textFormat :: 0 :: ([] ++ ([0, 0, 0, 0] ++ content))) = _ :=
        readLiteral_fields textFormat content rfl rfl
      rw [if_neg (by decide)] at read
      exact read
  | some hint =>
      have short : ((Text.Utf8.bytes hint.filename).take 255).length ≤ 255 := by
        rw [List.length_take]
        exact Nat.min_le_left _ _
      have size : ((Text.Utf8.bytes hint.filename).take 255).length =
          (UInt8.ofNat ((Text.Utf8.bytes hint.filename).take 255).length).toNat := by
        rw [UInt8.toNat_ofNat']
        omega
      have read := readLiteral_fields fileFormat content size
        (Bytes.length_ofNat 4 hint.modified.toNat)
      rw [if_pos rfl] at read
      simp only [literalHeader, List.append_assoc, List.cons_append]
      exact read

theorem peel_literal (body : Bytes) :
    peel ((0xC0 ||| Packet.Tag.literal) :: Packet.segments body) =
      (readLiteral body).map Sum.inl := by
  have read := Packet.readAll_single
    (Packet.encodes_segments (by decide : Packet.Tag.literal < 64) body)
  have first : firstInside [⟨Packet.Tag.literal, body⟩] = .ok ⟨Packet.Tag.literal, body⟩ := rfl
  simp only [peel, read, bind, Except.bind, first, if_true]
  cases readLiteral body <;> rfl

theorem look_header (depth room : Nat) (hints : Option Hints) (content : Bytes) :
    look depth room ((0xC0 ||| Packet.Tag.literal) ::
        Packet.segments (literalHeader hints ++ content)) =
      some (.ok ⟨content, hints.map Hints.recovered⟩) := by
  unfold look
  rw [peel_literal, readLiteral_header]
  rfl

theorem look_literal (depth room : Nat) (content : Bytes) {hints : Option Hints}
    (fits : ∀ hint, hints = some hint → hint.Fits) :
    look depth room ((0xC0 ||| Packet.Tag.literal) ::
        Packet.segments (literalHeader hints ++ content)) =
      some (.ok ⟨content, hints.map Hints.filename⟩) := by
  rw [look_header]
  cases hints with
  | none => rfl
  | some hint => rw [Option.map_some, Option.map_some, Hints.recovered_of_fits (fits hint rfl)]

end Literal

end DeadDrop.Envelope
