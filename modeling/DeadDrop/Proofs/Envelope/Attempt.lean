import DeadDrop.Proofs.Envelope.Profile

/-!
One attempt. A key is handed out once, so only the first session key packet is ever tried with it,
and whatever comes of that is the answer: the packet is broken, it grants no plausible session key,
the data refuses the session key, or the data opens. A message therefore opens as its first session
key packet and its protected data would by themselves.
-/

namespace DeadDrop.Envelope

section Sessions

variable {data passphrase session : Bytes} {sessions others : List Bytes}

theorem trySessions_spent :
    trySessions data ⟨passphrase, true⟩ sessions = .error .invalidKey := by
  cases sessions with
  | nil => rfl
  | cons session others => rfl

theorem trySessions_cons :
    trySessions data (.new passphrase) (session :: others) =
      unlock session passphrase >>= fun unlocked =>
        match unlocked with
        | none => .error .invalidKey
        | some (algorithm, sessionKey) =>
            openProtected data algorithm sessionKey >>= fun inner =>
              match inner with
              | none => .error .invalidKey
              | some inner => .ok inner := by
  rw [trySessions]
  simp only [OneShotKey.new, OneShotKey.provide, Bool.false_eq_true, if_false, bind, Except.bind]
  -- Four ways out of the first round, and two of them would go on to the next packet.
  cases unlock session passphrase with
  | error error => rfl
  | ok unlocked =>
      cases unlocked with
      | none => exact trySessions_spent
      | some pair =>
          obtain ⟨algorithm, sessionKey⟩ := pair
          dsimp only
          cases openProtected data algorithm sessionKey with
          | error error => rfl
          | ok inner =>
              cases inner with
              | none => exact trySessions_spent
              | some inner => rfl

/-- What stands behind the first session key packet is never tried. -/
theorem trySessions_first :
    trySessions data (.new passphrase) (session :: others) =
      trySessions data (.new passphrase) [session] := by
  rw [trySessions_cons, trySessions_cons]

end Sessions

section Packets

variable {source short : Source} {packets before after : List Packet} {session data : Bytes}

def Source.Holds (source : Source) (packets : List Packet) : Prop :=
  ∃ text octets, source.failure = none ∧ Text.Utf8.decode? source.contents = some text ∧
    Armor.decode? text = some octets ∧ Packet.readAll octets = .ok packets

theorem readMessage_of_holds (holds : source.Holds packets) :
    readMessage source = gather [] packets := by
  obtain ⟨text, octets, whole, decoded, armored, read⟩ := holds
  rw [readMessage]
  simp only [whole, decoded, armored, read, bind, Except.bind]

theorem reveal_of_holds
    (holds : source.Holds (before ++ ⟨Packet.Tag.protectedData, data⟩ :: after))
    (announced : ∀ packet ∈ before, Announces packet)
    (first : (sessionBodies before).head? = some session) (key : String) :
    reveal source key = trySessions data (.new (Text.Utf8.bytes key)) [session] := by
  obtain ⟨others, sessions⟩ := List.head?_eq_some_iff.mp first
  have gathered : readMessage source = .ok ⟨session :: others, data⟩ := by
    rw [readMessage_of_holds holds]
    exact gather_eq_ok_iff.mpr
      ⟨before, after, rfl, announced, sessions.symm, List.cons_ne_nil _ _⟩
  rw [reveal, gathered]
  exact trySessions_first

theorem reveal_of_pair (holds : source.Holds
      [⟨Packet.Tag.sessionKey, session⟩, ⟨Packet.Tag.protectedData, data⟩]) (key : String) :
    reveal source key = trySessions data (.new (Text.Utf8.bytes key)) [session] := by
  have split : source.Holds
      ([⟨Packet.Tag.sessionKey, session⟩] ++ ⟨Packet.Tag.protectedData, data⟩ :: []) := holds
  have first : (sessionBodies [⟨Packet.Tag.sessionKey, session⟩]).head? = some session := by
    rw [sessionBodies_cons_sessionKey [] rfl, List.head?_cons]
  refine reveal_of_holds split ?_ first key
  intro packet member
  rw [List.mem_singleton.mp member]
  exact .inl rfl

def Source.ofPackets (packets : List Packet) : Source :=
  .ofBytes (Text.Utf8.bytes (String.ofList (Armor.unlines (Armor.framed []
    (packets.flatMap fun packet => (0xC0 ||| packet.tag) :: Packet.segments packet.body)))))

theorem ofPackets_holds (small : ∀ packet ∈ packets, packet.tag < 64) :
    (Source.ofPackets packets).Holds packets := by
  let parts := packets.map fun packet =>
    ((0xC0 ||| packet.tag) :: Packet.segments packet.body, packet)
  have encoded : ∀ part ∈ parts, Packet.Encodes part.1 part.2 := by
    intro part member
    obtain ⟨packet, listed, rfl⟩ := List.mem_map.mp member
    exact Packet.encodes_segments (small packet listed) packet.body
  have read := Packet.readAll_of_encodes encoded
  simp only [parts, List.flatMap_map, List.map_map, Function.comp_def, List.map_id'] at read
  have armored := Armor.decode_written
    (packets.flatMap fun packet => (0xC0 ||| packet.tag) :: Packet.segments packet.body)
    fun header (member : header ∈ []) => (List.not_mem_nil member).elim
  refine ⟨_, _, rfl, ?_, armored, read⟩
  rw [Source.ofPackets, Source.contents, Source.ofBytes, List.flatten_singleton,
    Text.Utf8.decode_bytes, String.toList_ofList]

/-- Markers, further session key packets and all packets behind the protected data make no
difference, whatever the key: the message opens, or fails, as its first session key packet and
its protected data do in a message of their own. -/
theorem opens_as_first_session
    (holds : source.Holds (before ++ ⟨Packet.Tag.protectedData, data⟩ :: after))
    (announced : ∀ packet ∈ before, Announces packet)
    (first : (sessionBodies before).head? = some session) :
    (∃ short : Source, short.Holds
        [⟨Packet.Tag.sessionKey, session⟩, ⟨Packet.Tag.protectedData, data⟩]) ∧
      ∀ short : Source, short.Holds
          [⟨Packet.Tag.sessionKey, session⟩, ⟨Packet.Tag.protectedData, data⟩] →
        ∀ key : String, decrypt source key = decrypt short key ∧
          ∀ depth, decryptWithin depth source key = decryptWithin depth short key := by
  constructor
  · have small : Packet.Tag.sessionKey < 64 ∧ Packet.Tag.protectedData < 64 := by decide
    refine ⟨_, ofPackets_holds (List.forall_mem_cons.mpr ⟨small.1, ?_⟩)⟩
    intro packet member
    rw [List.mem_singleton.mp member]
    exact small.2
  · intro short alone key
    have same : reveal source key = reveal short key := by
      rw [reveal_of_holds holds announced first, reveal_of_pair alone]
    have within (depth : Nat) : decryptWithin depth source key = decryptWithin depth short key := by
      rw [decryptWithin, decryptWithin, same]
    exact ⟨within layerLimit, within⟩

end Packets

section Two

def twoSessions : List Packet := [
  ⟨Packet.Tag.marker, [0x50, 0x47, 0x50]⟩,
  ⟨Packet.Tag.sessionKey, noteSession (Text.Utf8.bytes "first")⟩,
  ⟨Packet.Tag.sessionKey, noteSession (Text.Utf8.bytes "second")⟩]

def twoSessionsMessage : List Packet :=
  twoSessions ++ ⟨Packet.Tag.protectedData, noteData⟩ :: [⟨Packet.Tag.literal, []⟩]

theorem twoSessions_announce : ∀ packet ∈ twoSessions, Announces packet := by
  intro packet member
  simp only [twoSessions, List.mem_cons, List.not_mem_nil, or_false] at member
  rcases member with rfl | rfl | rfl
  · exact .inr rfl
  · exact .inl rfl
  · exact .inl rfl

theorem twoSessionsMessage_holds :
    (Source.ofPackets twoSessionsMessage).Holds twoSessionsMessage := by
  have small : ∀ packet ∈ twoSessionsMessage, packet.tag < 64 := by decide
  exact ofPackets_holds small

theorem unlock_noteSession (passphrase : Bytes) :
    unlock (noteSession passphrase) passphrase = .ok (some (.aes256, noteKey.bytes)) :=
  unlock_of_grants (.wrapped (.simple .sha1) .aes128 noteKey)

/-- The second passphrase fits a session key packet of the message, and is tried on the first. -/
theorem second_session_is_not_tried :
    (∃ session, ⟨Packet.Tag.sessionKey, session⟩ ∈ twoSessions ∧
        unlock session (Text.Utf8.bytes "second") = .ok (some (.aes256, noteKey.bytes))) ∧
      (∀ packet ∈ twoSessions, Announces packet) ∧
      (Source.ofPackets twoSessionsMessage).Holds twoSessionsMessage ∧
      ∃ short : Source, short.Holds
          [⟨Packet.Tag.sessionKey, noteSession (Text.Utf8.bytes "first")⟩,
            ⟨Packet.Tag.protectedData, noteData⟩] ∧
        decrypt (Source.ofPackets twoSessionsMessage) "second" = decrypt short "second" := by
  have first : (sessionBodies twoSessions).head? =
      some (noteSession (Text.Utf8.bytes "first")) := rfl
  obtain ⟨⟨short, alone⟩, same⟩ :=
    opens_as_first_session twoSessionsMessage_holds twoSessions_announce first
  refine ⟨⟨_, ?_, unlock_noteSession _⟩, twoSessions_announce, twoSessionsMessage_holds, short,
    alone, (same short alone "second").1⟩
  exact List.mem_cons_of_mem _ (List.mem_cons_of_mem _ List.mem_cons_self)

end Two

end DeadDrop.Envelope
