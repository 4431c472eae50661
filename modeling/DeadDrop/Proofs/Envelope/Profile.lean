import DeadDrop.Proofs.Armor.Frame
import DeadDrop.Proofs.Envelope.Opening
import DeadDrop.Proofs.Packet.Grammar

/-!
The messages that open, whoever wrote them. A writer is free in how it derives the key and for
which cipher, whether it wraps a session key, in what form each packet goes out, where markers
stand, and in how many stored layers the literal packet lies. Every message made this way opens
with its passphrase.
-/

namespace DeadDrop.Envelope

open Cipher (Feedback)
open Packet (Written)

section Parts

structure Literal where
  format : UInt8
  name : Bytes
  date : Sized 4
  content : Bytes
  short : name.length ≤ 255

def Literal.body (literal : Literal) : Bytes :=
  literal.format :: UInt8.ofNat literal.name.length ::
    (literal.name ++ (literal.date.val ++ literal.content))

def Literal.decrypted (literal : Literal) : Decrypted :=
  ⟨literal.content,
    if literal.format = fileFormat then some (Text.Utf8.textLossy literal.name) else none⟩

def Markers (packets : List Packet) : Prop :=
  ∀ packet ∈ packets, packet.tag = Packet.Tag.marker

/-- Octets with a literal packet inside, in any number of stored layers. -/
inductive Carries (literal : Literal) : Bytes → Prop where
  | plain {markers : List Packet} {octets : Bytes} : Markers markers →
      Written (markers ++ [⟨Packet.Tag.literal, literal.body⟩]) octets → Carries literal octets
  | stored {markers : List Packet} {inner octets : Bytes} : Markers markers →
      Carries literal inner → Written (markers ++ [⟨Packet.Tag.compressed, 0 :: inner⟩]) octets →
      Carries literal octets

def Specifier.key (specifier : Specifier) (passphrase : Bytes) (algorithm : Cipher.Algorithm) :
    Cipher.Key algorithm :=
  ⟨specifier.derive passphrase algorithm.keySize,
    specifier.length_derive passphrase algorithm.keySize⟩

/-- The body of a session key packet from which a passphrase gets a data key: the derived key
itself, or one that is encrypted with it and may be for another cipher. -/
inductive Grants (passphrase : Bytes) :
    {algorithm : Cipher.Algorithm} → Cipher.Key algorithm → Bytes → Prop where
  | derived (specifier : Specifier) (algorithm : Cipher.Algorithm) :
      Grants passphrase (specifier.key passphrase algorithm)
        (sessionKeyVersion :: algorithm.number :: specifier.write)
  | wrapped (specifier : Specifier) (outer : Cipher.Algorithm) {inner : Cipher.Algorithm}
      (key : Cipher.Key inner) :
      Grants passphrase key (sessionKeyVersion :: outer.number :: (specifier.write ++
        (Feedback.start.apply (specifier.key passphrase outer).block .encrypt
          (inner.number :: key.bytes)).2))

inductive Conforms (passphrase : Bytes) (literal : Literal) : Bytes → Prop where
  | sealed {algorithm : Cipher.Algorithm} {key : Cipher.Key algorithm}
      {session inner octets : Bytes} {front middle after : List Packet} (filler : Sized 16) :
      Markers front → Grants passphrase key session → Markers middle → Carries literal inner →
      Written (front ++ ⟨Packet.Tag.sessionKey, session⟩ :: (middle ++
        ⟨Packet.Tag.protectedData,
          dataVersion :: protect key.block (fillerBlock filler ++ inner)⟩ :: after)) octets →
      Conforms passphrase literal octets

end Parts

section Reading

variable {literal : Literal} {passphrase octets : Bytes}

theorem Literal.readLiteral_body (literal : Literal) :
    readLiteral literal.body = .ok literal.decrypted := by
  have counted : (UInt8.ofNat literal.name.length).toNat = literal.name.length :=
    Packet.toNat_octet _ (Nat.lt_succ_of_le literal.short)
  exact readLiteral_fields literal.format literal.content counted.symm literal.date.property

-- A stored layer is shorter than the octets around it, which pays for one more look.
theorem look_of_carries (carries : Carries literal octets) (depth : Nat) {room : Nat}
    (enough : octets.length ≤ room) : look depth room octets = some (.ok literal.decrypted) := by
  induction carries generalizing room with
  | @plain markers octets marked written =>
      have first : firstInside (markers ++ [⟨Packet.Tag.literal, literal.body⟩]) = .ok _ :=
        firstInside_eq_ok_iff.mpr ⟨markers, [], rfl, marked, .inl rfl⟩
      have peeled := peel_eq_literal_iff.mpr
        ⟨_, _, Packet.readAll_of_written written, first, rfl, literal.readLiteral_body⟩
      unfold look
      rw [peeled]
  | @stored markers inner octets marked _ written ih =>
      have first : firstInside (markers ++ [⟨Packet.Tag.compressed, 0 :: inner⟩]) = .ok _ :=
        firstInside_eq_ok_iff.mpr ⟨markers, [], rfl, marked, .inr rfl⟩
      have other : Packet.Tag.compressed ≠ Packet.Tag.literal := by decide
      have peeled : peel octets = .ok (.inr (.stored inner)) := peel_eq_layer_iff.mpr
        ⟨_, _, Packet.readAll_of_written written, first, other, rfl⟩
      have shorter : inner.length + 1 < octets.length :=
        Packet.length_of_written written _ (List.mem_append_right markers List.mem_cons_self)
      obtain ⟨room, rfl⟩ : ∃ less, room = less + 1 :=
        Nat.exists_eq_succ_of_ne_zero (by omega)
      unfold look
      rw [peeled]
      exact ih (by omega)

theorem unlock_of_grants {algorithm : Cipher.Algorithm} {key : Cipher.Key algorithm}
    {session : Bytes} (grants : Grants passphrase key session) :
    unlock session passphrase = .ok (some (algorithm, key.bytes)) := by
  cases grants with
  | derived specifier =>
      have named : cipherOf algorithm.number = .ok algorithm := by
        rw [cipherOf, Cipher.Algorithm.ofNumber_number]
      have read := specifier.read_write []
      rw [List.append_nil] at read
      simp [unlock, named, read, Packet.Cursor.isEmpty, Specifier.key, bind, Except.bind, pure,
        Except.pure]
  | wrapped specifier outer =>
      exact unlock_hidden (keyFor_eq_ok_iff.mpr rfl) key.length_eq

/-- The packets of such a message, whatever their forms, lead to what the message carries. -/
theorem open_of_conforms (conforms : Conforms passphrase literal octets) :
    ∃ packets message inner, Packet.readAll octets = .ok packets ∧
      gather [] packets = .ok message ∧
      trySessions message.data (.new passphrase) message.sessions = .ok inner ∧
      Carries literal inner := by
  cases conforms with
  | @sealed algorithm key session inner _ front middle after filler ahead grants between carries
      written =>
      let data := dataVersion :: protect key.block (fillerBlock filler ++ inner)
      -- Markers are no session keys, so the one session key packet is the first of its kind.
      have none (packets : List Packet) (markers : Markers packets) :
          sessionBodies packets = [] := by
        have other : ∀ packet ∈ packets, ¬ packet.tag = Packet.Tag.sessionKey := by
          intro packet member
          rw [markers packet member]
          decide
        simpa [sessionBodies] using other
      have announce : ∀ packet ∈ front ++ ⟨Packet.Tag.sessionKey, session⟩ :: middle,
          Announces packet := by
        intro packet member
        rcases List.mem_append.mp member with member | member
        · exact .inr (ahead packet member)
        · rcases List.mem_cons.mp member with rfl | member
          · exact .inl rfl
          · exact .inr (between packet member)
      have bodies : sessionBodies (front ++ ⟨Packet.Tag.sessionKey, session⟩ :: middle) =
          [session] := by
        have split : sessionBodies (front ++ ⟨Packet.Tag.sessionKey, session⟩ :: middle) =
            sessionBodies front ++ session :: sessionBodies middle := by
          simp [sessionBodies]
        rw [split, none front ahead, none middle between, List.nil_append]
      refine ⟨_, ⟨[session], data⟩, inner, Packet.readAll_of_written written, ?_, ?_, carries⟩
      · refine gather_eq_ok_iff.mpr ⟨_, after, ?_, announce, bodies.symm, List.cons_ne_nil _ _⟩
        simp [data]
      · exact trySessions_eq_ok_iff.mpr ⟨session, [], algorithm, key.bytes, rfl,
          unlock_of_grants grants, openProtected_protect filler inner (keyFor_eq_ok_iff.mpr rfl)⟩

end Reading

section Message

variable {literal : Literal} {octets : Bytes} {key : String}

theorem decryptWithin_of_conforms (conforms : Conforms (Text.Utf8.bytes key) literal octets)
    (depth : Nat) {text : List Char} {pieces : List Bytes}
    (armored : Armor.decode? text = some octets)
    (whole : pieces.flatten = Text.Utf8.bytes (String.ofList text)) :
    decryptWithin depth ⟨pieces, none⟩ key = some (.ok literal.decrypted) := by
  obtain ⟨packets, message, inner, read, gathered, opened, carries⟩ := open_of_conforms conforms
  have decoded : Text.Utf8.decode? (Source.contents ⟨pieces, none⟩) = some text := by
    rw [Source.contents, whole, Text.Utf8.decode_bytes, String.toList_ofList]
  have found : readMessage ⟨pieces, none⟩ = .ok message :=
    readMessage_eq_ok_iff.mpr ⟨text, octets, packets, rfl, decoded, armored, read, gathered⟩
  have revealed : reveal ⟨pieces, none⟩ key = .ok inner :=
    reveal_eq_ok_iff.mpr ⟨message, found, opened⟩
  exact decryptWithin_eq_ok_iff.mpr
    ⟨inner, revealed, look_of_carries carries depth (Nat.le_refl _)⟩

/-- A message in the profile has an armor, with any headers, and opens with its passphrase in any
armor and whatever reads it comes in. -/
theorem decrypt_conforming (conforms : Conforms (Text.Utf8.bytes key) literal octets) :
    (∀ headers : List (String × String),
      (∀ header ∈ headers, Armor.Tidy (Armor.headerText header)) →
        Armor.decode? (Armor.unlines (Armor.framed headers octets)) = some octets) ∧
      ∀ (text : List Char) (pieces : List Bytes), Armor.decode? text = some octets →
        pieces.flatten = Text.Utf8.bytes (String.ofList text) →
          decrypt ⟨pieces, none⟩ key = some (.ok literal.decrypted) := by
  constructor
  · intro headers tidy
    exact Armor.decode_written octets tidy
  · intro text pieces armored whole
    exact decryptWithin_of_conforms conforms layerLimit armored whole

end Message

/-! A message that uses some of the freedom: a wrapped key for a larger cipher, a stored layer cut
into two segments, headers in both formats. -/
section Note

def note : Literal := ⟨fileFormat, [0x61], Sized.filled 4 0, [104, 105], by decide⟩

def noteLayer : Bytes := Packet.oldHeader Packet.Tag.literal 0 :: 9 :: note.body

def noteInside : Bytes :=
  (0xC0 ||| Packet.Tag.compressed) :: 227 :: ((0 :: noteLayer).take 8 ++
    4 :: (0 :: noteLayer).drop 8)

theorem noteInside_carries : Carries note noteInside := by
  have layer : Carries note noteLayer := by
    have packet : Packet.Delimited ⟨Packet.Tag.literal, note.body⟩ noteLayer :=
      .old (by decide) (.one (by decide))
    have written := Written.cons packet .nil
    rw [List.append_nil] at written
    exact .plain (fun _ member => (List.not_mem_nil member).elim) written
  have last : Packet.Segmented ((0 :: noteLayer).drop 8) (4 :: (0 :: noteLayer).drop 8) :=
    .last (.one (by decide))
  have full : ((0 :: noteLayer).take 8).length = 2 ^ 3 := rfl
  have cut : Packet.Segmented (0 :: noteLayer) (227 :: ((0 :: noteLayer).take 8 ++
      4 :: (0 :: noteLayer).drop 8)) := .segment 3 (by decide) full last
  have packet : Packet.Delimited ⟨Packet.Tag.compressed, 0 :: noteLayer⟩ noteInside :=
    .new (by decide) cut
  have written := Written.cons packet .nil
  rw [List.append_nil] at written
  exact .stored (fun _ member => (List.not_mem_nil member).elim) layer written

def noteKey : Cipher.Key .aes256 := ⟨List.replicate 32 7, rfl⟩

def noteSession (passphrase : Bytes) : Bytes :=
  sessionKeyVersion :: Cipher.Algorithm.aes128.number :: ((Specifier.simple .sha1).write ++
    (Feedback.start.apply ((Specifier.simple .sha1).key passphrase .aes128).block .encrypt
      (Cipher.Algorithm.aes256.number :: noteKey.bytes)).2)

def noteData : Bytes :=
  dataVersion :: protect noteKey.block (fillerBlock (Sized.filled 16 5) ++ noteInside)

def noteMessage (passphrase : Bytes) : Bytes :=
  (Packet.oldHeader Packet.Tag.marker 0 :: [3, 0x50, 0x47, 0x50]) ++
    ((Packet.oldHeader Packet.Tag.sessionKey 1 :: (Bytes.ofNat 2 37 ++ noteSession passphrase)) ++
      ((0xC0 ||| Packet.Tag.protectedData) :: (255 :: Bytes.ofNat 4 56 ++ noteData)))

theorem noteMessage_conforms (passphrase : Bytes) :
    Conforms passphrase note (noteMessage passphrase) := by
  have sessionLength : (noteSession passphrase).length = 37 := by
    simp [noteSession, Specifier.write, noteKey]
  have dataLength : noteData.length = 56 := by
    rw [noteData, List.length_cons, length_protect]
    rfl
  have marker : Packet.Delimited ⟨Packet.Tag.marker, [0x50, 0x47, 0x50]⟩
      (Packet.oldHeader Packet.Tag.marker 0 :: [3, 0x50, 0x47, 0x50]) :=
    .old (by decide) (.one (by decide))
  have session : Packet.Delimited ⟨Packet.Tag.sessionKey, noteSession passphrase⟩
      (Packet.oldHeader Packet.Tag.sessionKey 1 ::
        (Bytes.ofNat 2 37 ++ noteSession passphrase)) := by
    rw [← sessionLength]
    exact .old (by decide) (.two (by rw [sessionLength]; decide))
  have data : Packet.Delimited ⟨Packet.Tag.protectedData, noteData⟩
      ((0xC0 ||| Packet.Tag.protectedData) :: (255 :: Bytes.ofNat 4 56 ++ noteData)) := by
    rw [← dataLength]
    exact .new (by decide) (.last (.five (by rw [dataLength]; decide)))
  have written := Written.cons marker (Written.cons session (Written.cons data .nil))
  rw [List.append_nil] at written
  have ahead : Markers [⟨Packet.Tag.marker, [0x50, 0x47, 0x50]⟩] := by
    intro packet member
    rw [List.mem_singleton.mp member]
  exact .sealed (Sized.filled 16 5) ahead (.wrapped (.simple .sha1) .aes128 noteKey)
    (fun _ member => (List.not_mem_nil member).elim) noteInside_carries written

theorem note_opens :
    Conforms (Text.Utf8.bytes "key") note (noteMessage (Text.Utf8.bytes "key")) ∧
      decrypt ⟨[Text.Utf8.bytes (String.ofList (Armor.unlines
        (Armor.framed [] (noteMessage (Text.Utf8.bytes "key")))))], none⟩ "key" =
          some (.ok ⟨[104, 105], some "a"⟩) := by
  have conforms := noteMessage_conforms (Text.Utf8.bytes "key")
  obtain ⟨armors, opens⟩ := decrypt_conforming conforms
  have armored := armors [] fun _ member => (List.not_mem_nil member).elim
  have name : note.decrypted = ⟨[104, 105], some "a"⟩ := by decide +kernel
  rw [← name]
  exact ⟨conforms, opens _ _ armored (by simp)⟩

end Note

end DeadDrop.Envelope
