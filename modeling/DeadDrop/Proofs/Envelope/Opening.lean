import DeadDrop.Proofs.Envelope.Layers

/-!
What a message must be to open, stage by stage, and that no more is asked of it: the first packet
that is neither a session key nor a marker holds the protected data, the key fits the first session
key packet, the decrypted data repeats two octets of its filler and ends in a digest of itself, and
what lies between is opened in its turn.
-/

namespace DeadDrop.Envelope

open Cipher (Feedback)

section Protected

structure Verified (plain inner : Bytes) : Prop where
  long : fillerLength + detectionLength ≤ plain.length
  repeats : (plain.drop 14).take 2 = (plain.drop 16).take 2
  header : (plain.drop (plain.length - detectionLength)).take 2 = detectionHeader
  digest : plain.drop (plain.length - 20) = Digest.sha1.ofBytes (plain.take (plain.length - 20))
  between : inner = (plain.take (plain.length - detectionLength)).drop fillerLength

theorem detection_octets {plain : Bytes} (long : detectionLength ≤ plain.length) :
    (plain.take (plain.length - 20)).drop ((plain.take (plain.length - 20)).length - 2) =
      (plain.drop (plain.length - detectionLength)).take 2 := by
  have enough : 22 ≤ plain.length := long
  have start : (plain.take (plain.length - 20)).length - 2 = plain.length - 22 := by
    rw [List.length_take]
    omega
  have span : plain.length - 20 - (plain.length - 22) = 2 := by omega
  rw [start, List.drop_take, span]
  rfl

theorem verify_eq_ok_iff {plain inner : Bytes}
    (long : fillerLength + detectionLength ≤ plain.length) :
    verify plain = .ok (some inner) ↔ Verified plain inner := by
  have octets := detection_octets (Nat.le_trans (Nat.le_add_left _ _) long)
  unfold verify
  simp only [octets]
  constructor
  · intro done
    by_cases repeats : (plain.drop 14).take 2 = (plain.drop 16).take 2
    · rw [if_neg (not_not_intro repeats)] at done
      split at done
      · cases done
      · next sound =>
          obtain ⟨header, digest⟩ := not_or.mp sound
          cases done
          exact ⟨long, repeats, Decidable.not_not.mp header,
            (Decidable.not_not.mp digest).symm, rfl⟩
    · rw [if_pos repeats] at done
      cases done
  · rintro ⟨_, repeats, header, digest, rfl⟩
    rw [if_neg (not_not_intro repeats), if_neg]
    rintro (other | other)
    · exact other header
    · exact other digest.symm

theorem keyFor_eq_ok_iff {algorithm : Cipher.Algorithm} {bytes : Bytes}
    {key : Cipher.Key algorithm} : keyFor algorithm bytes = .ok key ↔ bytes = key.bytes := by
  constructor
  · intro made
    unfold keyFor Cipher.Key.ofBytes? at made
    split at made
    · next found =>
        split at found
        · cases found
          cases made
          rfl
        · cases found
    · cases made
  · rintro rfl
    rw [keyFor, Cipher.Key.ofBytes?, dif_pos key.length_eq]

theorem openProtected_eq_ok_iff {body sessionKey inner : Bytes} {algorithm : Cipher.Algorithm} :
    openProtected body algorithm sessionKey = .ok (some inner) ↔
      ∃ ciphertext, ∃ key : Cipher.Key algorithm, body = dataVersion :: ciphertext ∧
        sessionKey = key.bytes ∧
        Verified (Feedback.start.apply key.block .decrypt ciphertext).2 inner := by
  -- Decryption keeps the length, so the size can be judged before there is a key.
  have same (key : Cipher.Key algorithm) (ciphertext : Bytes) :
      (Feedback.start.apply key.block .decrypt ciphertext).2.length = ciphertext.length :=
    Feedback.length_apply _ _ _ _
  constructor
  · intro opened
    cases body with
    | nil => cases opened
    | cons version ciphertext =>
        unfold openProtected at opened
        by_cases current : version = dataVersion
        · by_cases short : ciphertext.length < fillerLength + detectionLength
          · simp [current, short, bind, Except.bind] at opened
          · simp only [current, ne_eq, not_true_eq_false, if_false, short] at opened
            obtain ⟨key, made, verified⟩ := bind_eq_ok_iff.mp opened
            have long : fillerLength + detectionLength ≤
                (Feedback.start.apply key.block .decrypt ciphertext).2.length := by
              rw [same key]
              exact Nat.not_lt.mp short
            exact ⟨ciphertext, key, by rw [current], keyFor_eq_ok_iff.mp made,
              (verify_eq_ok_iff long).mp verified⟩
        · simp [current, bind, Except.bind] at opened
  · rintro ⟨ciphertext, key, rfl, rfl, verified⟩
    have shown := (verify_eq_ok_iff verified.long).mpr verified
    have long : ¬ ciphertext.length < fillerLength + detectionLength := by
      rw [← same key]
      exact Nat.not_lt.mpr verified.long
    simp only [openProtected, ne_eq, not_true_eq_false, if_false, if_neg long,
      keyFor_eq_ok_iff.mpr rfl, bind, Except.bind, shown]

end Protected

section Session

variable {data inner passphrase : Bytes} {sessions : List Bytes}

theorem spent_opens_nothing {key : Bytes} :
    trySessions data ⟨key, true⟩ sessions ≠ .ok inner := by
  intro opened
  cases sessions with
  | nil => cases opened
  | cons body rest => cases opened

theorem trySessions_eq_ok_iff :
    trySessions data (.new passphrase) sessions = .ok inner ↔
      ∃ body rest algorithm sessionKey, sessions = body :: rest ∧
        unlock body passphrase = .ok (some (algorithm, sessionKey)) ∧
        openProtected data algorithm sessionKey = .ok (some inner) := by
  constructor
  · intro opened
    cases sessions with
    | nil => cases opened
    | cons body rest =>
        simp only [trySessions, OneShotKey.new, OneShotKey.provide, Bool.false_eq_true,
          if_false] at opened
        obtain ⟨key, given, opened⟩ := bind_eq_ok_iff.mp opened
        cases given
        obtain ⟨unlocked, found, opened⟩ := bind_eq_ok_iff.mp opened
        -- Trying a session key packet spends the key, so the others never come into play.
        cases unlocked with
        | none => exact absurd opened spent_opens_nothing
        | some pair =>
            obtain ⟨algorithm, sessionKey⟩ := pair
            obtain ⟨revealed, shown, opened⟩ := bind_eq_ok_iff.mp opened
            cases revealed with
            | none => exact absurd opened spent_opens_nothing
            | some data =>
                cases opened
                exact ⟨body, rest, algorithm, sessionKey, rfl, found, shown⟩
  · rintro ⟨body, rest, algorithm, sessionKey, rfl, found, shown⟩
    simp [trySessions, OneShotKey.new, OneShotKey.provide, found, shown, bind, Except.bind, pure,
      Except.pure]

end Session

section Message

/-- What may stand before the protected data. -/
def Announces (packet : Packet) : Prop :=
  packet.tag = Packet.Tag.sessionKey ∨ packet.tag = Packet.Tag.marker

/-- The bodies of the session key packets. -/
def sessionBodies (packets : List Packet) : List Bytes :=
  (packets.filter fun packet => packet.tag = Packet.Tag.sessionKey).map Packet.body

theorem sessionBodies_cons_sessionKey {packet : Packet} (others : List Packet)
    (tag : packet.tag = Packet.Tag.sessionKey) :
    sessionBodies (packet :: others) = packet.body :: sessionBodies others := by
  simp [sessionBodies, tag]

theorem sessionBodies_cons_other {packet : Packet} (others : List Packet)
    (tag : packet.tag ≠ Packet.Tag.sessionKey) :
    sessionBodies (packet :: others) = sessionBodies others := by
  simp [sessionBodies, tag]

variable {packets : List Packet} {message : Sealed}

-- The accumulator holds what was gathered before, newest first.
theorem gather_sound {gathered : List Bytes} (done : gather gathered packets = .ok message) :
    ∃ before after, packets = before ++ ⟨Packet.Tag.protectedData, message.data⟩ :: after ∧
      (∀ packet ∈ before, Announces packet) ∧
      message.sessions = gathered.reverse ++ sessionBodies before ∧ message.sessions ≠ [] := by
  induction packets generalizing gathered with
  | nil => cases done
  | cons packet rest ih =>
      unfold gather at done
      split at done
      · next tag =>
          obtain ⟨before, after, shape, announce, sessions, some⟩ := ih done
          have known : ∀ other ∈ packet :: before, Announces other :=
            List.forall_mem_cons.mpr ⟨.inl tag, announce⟩
          refine ⟨packet :: before, after, by rw [shape, List.cons_append], known, ?_, some⟩
          rw [sessions, sessionBodies_cons_sessionKey before tag]
          simp
      · next notSession =>
          split at done
          · next tag =>
              split at done
              · cases done
              · next some =>
                  cases done
                  refine ⟨[], rest, ?_, ?_, ?_, ?_⟩
                  · rw [← tag, List.nil_append]
                  · intro other member
                    cases member
                  · simp [sessionBodies]
                  · simpa using some
          · split at done
            · cases done
            · split at done
              · next tag =>
                  obtain ⟨before, after, shape, announce, sessions, some⟩ := ih done
                  have known : ∀ other ∈ packet :: before, Announces other :=
                    List.forall_mem_cons.mpr ⟨.inr tag, announce⟩
                  refine ⟨packet :: before, after, by rw [shape, List.cons_append], known, ?_, some⟩
                  rw [sessions, sessionBodies_cons_other before notSession]
              · split at done <;> cases done

theorem gather_complete {before after : List Packet} {data : Bytes} {gathered : List Bytes}
    (announce : ∀ packet ∈ before, Announces packet)
    (some : gathered.reverse ++ sessionBodies before ≠ []) :
    gather gathered (before ++ ⟨Packet.Tag.protectedData, data⟩ :: after) =
      .ok ⟨gathered.reverse ++ sessionBodies before, data⟩ := by
  induction before generalizing gathered with
  | nil =>
      have filled : gathered ≠ [] := by simpa [sessionBodies] using some
      have other : Packet.Tag.protectedData ≠ Packet.Tag.sessionKey := by decide
      simp [gather, other, filled, sessionBodies]
  | cons packet rest ih =>
      have later : ∀ other ∈ rest, Announces other :=
        fun other member => announce other (List.mem_cons_of_mem _ member)
      rcases announce packet List.mem_cons_self with tag | tag
      · rw [sessionBodies_cons_sessionKey rest tag] at some ⊢
        have moved : gathered.reverse ++ packet.body :: sessionBodies rest =
            (packet.body :: gathered).reverse ++ sessionBodies rest := by simp
        rw [moved] at some ⊢
        rw [List.cons_append, gather, if_pos tag]
        exact ih later some
      · have others : packet.tag ≠ Packet.Tag.sessionKey ∧
            packet.tag ≠ Packet.Tag.protectedData ∧ packet.tag ≠ Packet.Tag.unprotected := by
          rw [tag]
          decide
        rw [sessionBodies_cons_other rest others.1] at some ⊢
        rw [List.cons_append, gather, if_neg others.1, if_neg others.2.1, if_neg others.2.2,
          if_pos tag]
        exact ih later some

theorem gather_eq_ok_iff :
    gather [] packets = .ok message ↔
      ∃ before after, packets = before ++ ⟨Packet.Tag.protectedData, message.data⟩ :: after ∧
        (∀ packet ∈ before, Announces packet) ∧ message.sessions = sessionBodies before ∧
        message.sessions ≠ [] := by
  constructor
  · exact gather_sound
  · rintro ⟨before, after, rfl, announce, sessions, some⟩
    have filled : ([] : List Bytes).reverse ++ sessionBodies before ≠ [] := by
      rw [List.reverse_nil, List.nil_append, ← sessions]
      exact some
    rw [gather_complete announce filled, List.reverse_nil, List.nil_append, ← sessions]

theorem readMessage_eq_ok_iff {source : Source} :
    readMessage source = .ok message ↔
      ∃ text octets packets, source.failure = none ∧
        Text.Utf8.decode? source.contents = some text ∧ Armor.decode? text = some octets ∧
        Packet.readAll octets = .ok packets ∧ gather [] packets = .ok message := by
  constructor
  · intro done
    unfold readMessage at done
    split at done
    · next whole text =>
        split at done
        · next octets found =>
            obtain ⟨packets, read, gathered⟩ := bind_eq_ok_iff.mp done
            exact ⟨_, octets, packets, whole, text, found, read, gathered⟩
        · cases done
    · cases done
  · rintro ⟨text, octets, packets, whole, decoded, found, read, gathered⟩
    rw [readMessage]
    simp only [whole, decoded, found]
    exact bind_eq_ok_iff.mpr ⟨packets, read, gathered⟩

theorem reveal_eq_ok_iff {source : Source} {key : String} {inner : Bytes} :
    reveal source key = .ok inner ↔
      ∃ message, readMessage source = .ok message ∧
        trySessions message.data (.new (Text.Utf8.bytes key)) message.sessions = .ok inner :=
  bind_eq_ok_iff

theorem decryptWithin_eq_ok_iff {depth : Nat} {source : Source} {key : String}
    {opened : Decrypted} :
    decryptWithin depth source key = some (.ok opened) ↔
      ∃ inner, reveal source key = .ok inner ∧
        look depth inner.length inner = some (.ok opened) := by
  unfold decryptWithin
  cases reveal source key with
  | error error => simp
  | ok inner => simp

end Message

section Inside

variable {packet : Packet} {packets : List Packet} {data : Bytes} {opened : Decrypted}

theorem firstInside_eq_ok_iff :
    firstInside packets = .ok packet ↔
      ∃ markers others, packets = markers ++ packet :: others ∧
        (∀ marker ∈ markers, marker.tag = Packet.Tag.marker) ∧
        (packet.tag = Packet.Tag.literal ∨ packet.tag = Packet.Tag.compressed) := by
  induction packets with
  | nil => simp [firstInside]
  | cons first rest ih =>
      rw [firstInside]
      constructor
      · intro done
        split at done
        · next tag =>
            obtain ⟨markers, others, shape, marked, known⟩ := ih.mp done
            exact ⟨first :: markers, others, by rw [shape, List.cons_append],
              List.forall_mem_cons.mpr ⟨tag, marked⟩, known⟩
        · split at done
          · next known =>
              cases done
              exact ⟨[], rest, rfl, fun _ member => (List.not_mem_nil member).elim, known⟩
          · cases done
      · rintro ⟨markers, others, shape, marked, known⟩
        cases markers with
        | nil =>
            obtain ⟨rfl, rfl⟩ := List.cons.inj shape
            have other : first.tag ≠ Packet.Tag.marker := by
              rcases known with tag | tag <;> rw [tag] <;> decide
            rw [if_neg other, if_pos known]
        | cons marker markers =>
            obtain ⟨rfl, behind⟩ := List.cons.inj shape
            obtain ⟨tag, marked⟩ := List.forall_mem_cons.mp marked
            rw [if_pos tag]
            exact ih.mpr ⟨markers, others, behind, marked, known⟩

theorem peel_eq_literal_iff :
    peel data = .ok (.inl opened) ↔
      ∃ packets packet, Packet.readAll data = .ok packets ∧ firstInside packets = .ok packet ∧
        packet.tag = Packet.Tag.literal ∧ readLiteral packet.body = .ok opened := by
  constructor
  · intro done
    obtain ⟨packets, read, done⟩ := bind_eq_ok_iff.mp done
    obtain ⟨packet, first, done⟩ := bind_eq_ok_iff.mp done
    by_cases tag : packet.tag = Packet.Tag.literal
    · rw [if_pos tag] at done
      obtain ⟨literal, found, done⟩ := bind_eq_ok_iff.mp done
      cases done
      exact ⟨packets, packet, read, first, tag, found⟩
    · rw [if_neg tag] at done
      obtain ⟨layer, _, done⟩ := bind_eq_ok_iff.mp done
      cases done
  · rintro ⟨packets, packet, read, first, tag, found⟩
    simp [peel, read, first, tag, found, bind, Except.bind, pure, Except.pure]

theorem peel_eq_layer_iff {layer : Unwrapped} :
    peel data = .ok (.inr layer) ↔
      ∃ packets packet, Packet.readAll data = .ok packets ∧ firstInside packets = .ok packet ∧
        packet.tag ≠ Packet.Tag.literal ∧ unwrap packet.body = .ok layer := by
  constructor
  · intro done
    obtain ⟨packets, read, done⟩ := bind_eq_ok_iff.mp done
    obtain ⟨packet, first, done⟩ := bind_eq_ok_iff.mp done
    by_cases tag : packet.tag = Packet.Tag.literal
    · rw [if_pos tag] at done
      obtain ⟨literal, _, done⟩ := bind_eq_ok_iff.mp done
      cases done
    · rw [if_neg tag] at done
      obtain ⟨layer, found, done⟩ := bind_eq_ok_iff.mp done
      cases done
      exact ⟨packets, packet, read, first, tag, found⟩
  · rintro ⟨packets, packet, read, first, tag, found⟩
    simp [peel, read, first, tag, found, bind, Except.bind, pure, Except.pure]

end Inside

end DeadDrop.Envelope
