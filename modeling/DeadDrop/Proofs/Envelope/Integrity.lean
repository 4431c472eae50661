import DeadDrop.Proofs.Envelope.Profile

/-!
Nothing is given out that its digest does not cover. Whatever octets arrive, a message opens only
through a protected data packet, only with the data key that its first session key packet grants,
and only if the decrypted data vouches for itself; what is given out is then read from between
filler and digest alone. Data without protection is refused at every depth.
-/

namespace DeadDrop.Envelope

open Cipher (Feedback)

section Layers

def Unwrapped.data : Unwrapped → Bytes
  | .stored data => data
  | .inflated data => data

/-- The way from some octets to what is given out: behind markers, a literal packet, or a layer of
compression and the way on from what it unwraps to. -/
inductive Yields (opened : Decrypted) : Bytes → Prop where
  | literal {octets body : Bytes} {markers others : List Packet} :
      Packet.readAll octets = .ok (markers ++ ⟨Packet.Tag.literal, body⟩ :: others) →
      Markers markers → readLiteral body = .ok opened → Yields opened octets
  | layer {octets body : Bytes} {markers others : List Packet} {layer : Unwrapped} :
      Packet.readAll octets = .ok (markers ++ ⟨Packet.Tag.compressed, body⟩ :: others) →
      Markers markers → unwrap body = .ok layer → Yields opened layer.data → Yields opened octets

variable {octets : Bytes} {opened : Decrypted}

theorem yields_of_literal (done : peel octets = .ok (.inl opened)) : Yields opened octets := by
  obtain ⟨packets, packet, read, first, tag, found⟩ := peel_eq_literal_iff.mp done
  obtain ⟨markers, others, rfl, marked, _⟩ := firstInside_eq_ok_iff.mp first
  obtain ⟨tag', body⟩ := packet
  cases tag
  exact .literal read marked found

theorem yields_of_layer {layer : Unwrapped} (done : peel octets = .ok (.inr layer))
    (further : Yields opened layer.data) : Yields opened octets := by
  obtain ⟨packets, packet, read, first, other, found⟩ := peel_eq_layer_iff.mp done
  obtain ⟨markers, others, rfl, marked, known⟩ := firstInside_eq_ok_iff.mp first
  have tag : packet.tag = Packet.Tag.compressed := known.resolve_left other
  obtain ⟨tag', body⟩ := packet
  cases tag
  exact .layer read marked found further

/-- However deep it looks, the reader gives out nothing it did not come to on this way. -/
theorem yields_of_look {depth room : Nat} (done : look depth room octets = some (.ok opened)) :
    Yields opened octets := by
  -- A stored layer costs room and an inflated one depth; where either is spent there is no answer.
  induction depth, room, octets using look.induct with
  | case1 depth room octets error failed =>
      rw [look, failed] at done
      cases done
  | case2 depth room octets literal found =>
      rw [look, found] at done
      cases done
      exact yields_of_literal found
  | case3 depth octets inner found =>
      rw [look, found] at done
      cases done
  | case4 depth octets inner found room ih =>
      rw [look, found] at done
      exact yields_of_layer found (ih done)
  | case5 room octets inner found =>
      rw [look, found] at done
      cases done
  | case6 room octets inner found depth ih =>
      rw [look, found] at done
      exact yields_of_layer found (ih done)

end Layers

section Message

/-- How a message was opened, up to its decrypted data. -/
structure Opening (source : Source) (key : String) where
  text : List Char
  octets : Bytes
  before : List Packet
  after : List Packet
  session : Bytes
  ciphertext : Bytes
  algorithm : Cipher.Algorithm
  dataKey : Cipher.Key algorithm
  whole : source.failure = none
  decoded : Text.Utf8.decode? source.contents = some text
  armored : Armor.decode? text = some octets
  packets : Packet.readAll octets =
    .ok (before ++ ⟨Packet.Tag.protectedData, dataVersion :: ciphertext⟩ :: after)
  announced : ∀ packet ∈ before, Announces packet
  first : (sessionBodies before).head? = some session
  unlocked : unlock session (Text.Utf8.bytes key) = .ok (some (algorithm, dataKey.bytes))

def Opening.plain {source : Source} {key : String} (opening : Opening source key) : Bytes :=
  (Feedback.start.apply opening.dataKey.block .decrypt opening.ciphertext).2

variable {source : Source} {key : String}

theorem not_announces_unprotected (body : Bytes) :
    ¬ Announces ⟨Packet.Tag.unprotected, body⟩ := by
  have other : Packet.Tag.unprotected ≠ Packet.Tag.sessionKey ∧
      Packet.Tag.unprotected ≠ Packet.Tag.marker := by decide
  rintro (tag | tag)
  · exact other.1 tag
  · exact other.2 tag

/-- Unprotected data can only stand behind the protected data, where nothing is read any more. -/
theorem Opening.unprotected_behind (opening : Opening source key) {front back : List Packet}
    {body : Bytes} (read : Packet.readAll opening.octets =
      .ok (front ++ ⟨Packet.Tag.unprotected, body⟩ :: back)) :
    ∃ packet ∈ front, packet.tag = Packet.Tag.protectedData := by
  have same := Except.ok.inj (opening.packets.symm.trans read)
  have other : Packet.Tag.protectedData ≠ Packet.Tag.unprotected := by decide
  -- The same packets are split at two places, and either place may come first.
  rcases List.append_eq_append_iff.mp same with ⟨rest, front_eq, shape⟩ | ⟨rest, before_eq, shape⟩
  · cases rest with
    | nil => exact absurd (congrArg Packet.tag (List.cons.inj shape).1) other
    | cons packet rest =>
        obtain ⟨rfl, _⟩ := List.cons.inj shape
        refine ⟨⟨Packet.Tag.protectedData, dataVersion :: opening.ciphertext⟩, ?_, rfl⟩
        rw [front_eq]
        exact List.mem_append_right _ List.mem_cons_self
  · cases rest with
    | nil => exact absurd (congrArg Packet.tag (List.cons.inj shape).1) other.symm
    | cons packet rest =>
        obtain ⟨rfl, _⟩ := List.cons.inj shape
        refine absurd (opening.announced _ ?_) (not_announces_unprotected body)
        rw [before_eq]
        exact List.mem_append_right _ List.mem_cons_self

theorem opening_of_reveal {inner : Bytes} (done : reveal source key = .ok inner) :
    ∃ opening : Opening source key, Verified opening.plain inner := by
  obtain ⟨message, found, opened⟩ := reveal_eq_ok_iff.mp done
  obtain ⟨text, octets, packets, whole, decoded, armored, read, gathered⟩ :=
    readMessage_eq_ok_iff.mp found
  obtain ⟨before, after, rfl, announced, sessions, _⟩ := gather_eq_ok_iff.mp gathered
  obtain ⟨session, others, algorithm, _, shape, unlocked, opened⟩ := trySessions_eq_ok_iff.mp opened
  obtain ⟨ciphertext, dataKey, body, rfl, verified⟩ := openProtected_eq_ok_iff.mp opened
  have first : (sessionBodies before).head? = some session := by
    rw [← sessions, shape]
    rfl
  rw [body] at read
  exact ⟨{ text, octets, before, after, session, ciphertext, algorithm, dataKey, whole, decoded,
           armored, packets := read, announced, first, unlocked }, verified⟩

/-- Whatever is given out was read from the verified inside of the one protected data packet, no
matter how many growing layers are followed. -/
theorem nothing_without_integrity {depth : Nat} {opened : Decrypted}
    (done : decryptWithin depth source key = some (.ok opened)) :
    ∃ (opening : Opening source key) (inner : Bytes),
      Verified opening.plain inner ∧ look depth inner.length inner = some (.ok opened) ∧
        Yields opened inner ∧
        ∀ front body back, Packet.readAll opening.octets =
            .ok (front ++ ⟨Packet.Tag.unprotected, body⟩ :: back) →
          ∃ packet ∈ front, packet.tag = Packet.Tag.protectedData := by
  obtain ⟨inner, revealed, looked⟩ := decryptWithin_eq_ok_iff.mp done
  obtain ⟨opening, verified⟩ := opening_of_reveal revealed
  refine ⟨opening, inner, verified, looked, yields_of_look looked, ?_⟩
  intro front body back read
  exact opening.unprotected_behind read

theorem note_needs_integrity :
    ∃ (source : Source) (opening : Opening source "key") (inner : Bytes),
      decrypt source "key" = some (.ok note.decrypted) ∧ Verified opening.plain inner ∧
        Yields note.decrypted inner := by
  have conforms := noteMessage_conforms (Text.Utf8.bytes "key")
  have armored := Armor.decode_written (noteMessage (Text.Utf8.bytes "key"))
    fun header (member : header ∈ []) => (List.not_mem_nil member).elim
  have opens := decryptWithin_of_conforms conforms layerLimit armored List.flatten_singleton
  obtain ⟨opening, inner, verified, _, yields, _⟩ := nothing_without_integrity opens
  exact ⟨_, opening, inner, opens, verified, yields⟩

end Message

end DeadDrop.Envelope
