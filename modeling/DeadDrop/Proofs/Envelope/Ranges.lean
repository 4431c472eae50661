import DeadDrop.Proofs.Armor.Size
import DeadDrop.Proofs.Envelope.Depth
import DeadDrop.Proofs.Envelope.KeyRanges
import DeadDrop.Proofs.Envelope.Refusal
import DeadDrop.Proofs.Envelope.Sealing

/-!
Opening by operations that have a range. Protected data is sliced and split at places counted from
either end, which lie inside it because it was measured before, and everything else is read through
readers that look before they take. So the octets of a message and the key cannot drive an operation
out of its range, at whatever depth; only a message whose layers never end is left without an
answer.
-/

namespace DeadDrop.Envelope

open Cipher (Feedback)
open Packet (Reader)
open Checked (Tracks slice splitAt minus wordSize)

namespace Ranged

def verify (plain : Bytes) : Checked (Option Bytes) := do
  let filled ← slice plain 14 16
  let repeated ← slice plain 16 18
  if filled ≠ repeated then return none
  else
    let (hashed, digest) ← splitAt plain (← minus plain.length 20)
    let header ← slice hashed (← minus hashed.length 2) hashed.length
    if header ≠ detectionHeader ∨ Digest.sha1.ofBytes hashed ≠ digest then throw .integrity
    else
      let inner ← slice plain fillerLength (← minus plain.length detectionLength)
      return some inner

def openProtected (body : Bytes) (algorithm : Cipher.Algorithm) (sessionKey : Bytes) :
    Checked (Option Bytes) :=
  match body with
  | [] => throw (.malformed .emptyEncryptedData)
  | version :: ciphertext => do
      if version ≠ dataVersion then throw (.unsupported (.dataVersion version))
      if ciphertext.length < fillerLength + detectionLength then
        throw (.malformed .encryptedDataTooShort)
      let key ← Cipher.Key.ofBytes? algorithm sessionKey
      verify (Feedback.start.apply key.block .decrypt ciphertext).2

def trySessions (data : Bytes) (provider : OneShotKey) : List Bytes → Checked Bytes
  | [] => throw .invalidKey
  | body :: rest => do
      let (passphrase, provider) := provider.provide
      match ← unlock body (← passphrase) with
      | none => trySessions data provider rest
      | some (algorithm, sessionKey) =>
          match ← openProtected data algorithm sessionKey with
          | none => trySessions data provider rest
          | some inner => return inner

def readMessage (ciphertext : Source) : Checked Sealed :=
  match ciphertext.failure, Text.Utf8.decode? ciphertext.contents with
  | none, some text =>
      match Armor.decode? text with
      | some binary => do gather [] (← Reader.readAll binary)
      | none => throw .invalidMessage
  | _, _ => throw .invalidMessage

def reveal (ciphertext : Source) (key : String) : Checked Bytes := do
  let message ← readMessage ciphertext
  trySessions message.data (.new (Text.Utf8.bytes key)) message.sessions

def readLiteral (body : Bytes) : Checked Decrypted := do
  let (format, reader) ← (Reader.start body).octet
  let (length, reader) ← reader.octet
  let (name, reader) ← reader.take length.toNat
  let (_, reader) ← reader.take 4
  let filename := if format = fileFormat then some (Text.Utf8.textLossy name) else none
  let (content, _) ← reader.remainder
  return ⟨content, filename⟩

def peel (data : Bytes) : Checked (Decrypted ⊕ Unwrapped) := do
  let packet ← firstInside (← Reader.readAll data)
  if packet.tag = Packet.Tag.literal then return .inl (← readLiteral packet.body)
  else return .inr (← unwrap packet.body)

/-- The inner `none` is the depth used up. -/
def look (depth room : Nat) (data : Bytes) : Option (Option (Except Error Decrypted)) :=
  match (peel data).run with
  | none => none
  | some (.error error) => some (some (.error error))
  | some (.ok (.inl literal)) => some (some (.ok literal))
  | some (.ok (.inr (.stored inner))) =>
      match room with
      | 0 => some none
      | room + 1 => look depth room inner
  | some (.ok (.inr (.inflated inner))) =>
      match depth with
      | 0 => some none
      | depth + 1 => look depth inner.length inner
termination_by (depth, room)

def decryptWithin (depth : Nat) (ciphertext : Source) (key : String) :
    Option (Option (Except Error Decrypted)) :=
  match (reveal ciphertext key).run with
  | none => none
  | some (.error error) => some (some (.error error))
  | some (.ok inner) => look depth inner.length inner

end Ranged

section Protected

theorem tracks_verify {plain : Bytes} (long : fillerLength + detectionLength ≤ plain.length) :
    Tracks Eq (Ranged.verify plain) (verify plain) := by
  have enough : 40 ≤ plain.length := long
  have filled : slice plain 14 16 = some ((plain.drop 14).take 2) := by
    rw [Checked.slice_of_le (by decide) (by omega), List.drop_take]
  have repeated : slice plain 16 18 = some ((plain.drop 16).take 2) := by
    rw [Checked.slice_of_le (by decide) (by omega), List.drop_take]
  rw [Ranged.verify, filled, Checked.some_bind, repeated, Checked.some_bind, verify]
  refine .ite (fun _ => .done rfl) fun _ => ?_
  have hashed : 2 ≤ (plain.take (plain.length - 20)).length := by
    rw [List.length_take]
    omega
  rw [Checked.minus_of_le (by omega), Checked.some_bind, Checked.splitAt_of_le (Nat.sub_le _ _),
    Checked.some_bind]
  dsimp only
  rw [Checked.minus_of_le hashed, Checked.some_bind, Checked.slice_to_end (Nat.sub_le _ _),
    Checked.some_bind]
  refine .ite (fun _ => .failed _) fun _ => ?_
  have digested : detectionLength ≤ plain.length := Nat.le_trans (Nat.le_add_left _ _) long
  have between : fillerLength ≤ plain.length - detectionLength := Nat.le_sub_of_add_le long
  rw [Checked.minus_of_le digested, Checked.some_bind, Checked.slice_of_le between (Nat.sub_le _ _),
    Checked.some_bind]
  exact .done rfl

-- Shorter data would be split before its start: it is measured before it is verified.
example : (Ranged.verify (List.replicate 18 0)).run = none := by decide

theorem tracks_openProtected {body sessionKey : Bytes} {algorithm : Cipher.Algorithm}
    (fits : sessionKey.length = algorithm.keySize) :
    Tracks Eq (Ranged.openProtected body algorithm sessionKey)
      (openProtected body algorithm sessionKey) := by
  cases body with
  | nil => exact .failed _
  | cons version ciphertext =>
      refine .ite (fun _ => .failed _) fun _ => .ite (fun _ => .failed _) fun long => ?_
      rw [keyFor, ofBytes_of_length fits, Checked.some_bind]
      refine tracks_verify ?_
      rw [Feedback.length_apply]
      exact Nat.not_lt.mp long

end Protected

section Message

variable {sessions : List Bytes}

theorem tracks_trySessions (data : Bytes) (provider : OneShotKey)
    (fit : ∀ body ∈ sessions, body.length < wordSize) :
    Tracks Eq (Ranged.trySessions data provider sessions) (trySessions data provider sessions) := by
  induction sessions generalizing provider with
  | nil => exact .failed _
  | cons body rest ih =>
      obtain ⟨first, others⟩ := List.forall_mem_cons.mp fit
      refine (Checked.tracks_plain provider.provide.1).bind ?_
      rintro passphrase _ rfl
      refine (tracks_unlock first passphrase).bind ?_
      rintro unlocked _ ⟨rfl, fitting⟩
      cases unlocked with
      | none => exact ih _ others
      | some pair =>
          obtain ⟨algorithm, sessionKey⟩ := pair
          refine (tracks_openProtected (fitting _ rfl)).bind ?_
          rintro opened _ rfl
          cases opened with
          | none => exact ih _ others
          | some inner => exact .done rfl

theorem gathered_lt {octets : Bytes} {packets : List Packet} {message : Sealed}
    (read : Packet.readAll octets = .ok packets) (gathered : gather [] packets = .ok message) :
    ∀ body ∈ message.sessions, body.length < octets.length := by
  intro body member
  obtain ⟨before, after, shape, _, sessions, _⟩ := gather_eq_ok_iff.mp gathered
  rw [sessions, sessionBodies, List.mem_map] at member
  obtain ⟨packet, kept, rfl⟩ := member
  apply Packet.length_of_readAll read
  rw [shape]
  exact List.mem_append_left _ (List.mem_filter.mp kept).1

end Message

section Layers

variable {body data : Bytes}

theorem tracks_readLiteral (fits : body.length < wordSize) :
    Tracks Eq (Ranged.readLiteral body) (readLiteral body) := by
  refine (Reader.tracks_octet (Reader.at_start fits)).bind ?_
  rintro ⟨format, reader⟩ ⟨_, cursor⟩ ⟨rfl, place⟩
  refine (Reader.tracks_octet place).bind ?_
  rintro ⟨length, reader⟩ ⟨_, cursor⟩ ⟨rfl, place⟩
  refine (Reader.tracks_take place _).bind ?_
  rintro ⟨name, reader⟩ ⟨_, cursor⟩ ⟨rfl, place⟩
  refine (Reader.tracks_take place _).bind ?_
  rintro ⟨date, reader⟩ ⟨_, cursor⟩ ⟨rfl, place⟩
  dsimp only
  rw [place.remainder_eq, pure_bind]
  exact .done rfl

theorem mem_of_firstInside {packet : Packet} {packets : List Packet}
    (first : firstInside packets = .ok packet) : packet ∈ packets := by
  obtain ⟨markers, others, rfl, _, _⟩ := firstInside_eq_ok_iff.mp first
  exact List.mem_append_right markers List.mem_cons_self

theorem tracks_peel (fits : data.length < wordSize) :
    Tracks Eq (Ranged.peel data) (peel data) := by
  refine ((Reader.tracks_readAll fits).knowing
    (fun packets => ∀ packet ∈ packets, packet.body.length < data.length)
    fun packets read packet member => Packet.length_of_readAll read member).bind ?_
  rintro packets _ ⟨rfl, shorter⟩
  refine ((Checked.tracks_plain (firstInside packets)).knowing
    (fun packet => packet.body.length < data.length)
    fun packet first => shorter packet (mem_of_firstInside first)).bind ?_
  rintro packet _ ⟨rfl, short⟩
  refine .ite (fun _ => ?_) fun _ => ?_
  · refine (tracks_readLiteral (Nat.lt_trans short fits)).bind ?_
    rintro opened _ rfl
    exact .done rfl
  · refine (Checked.tracks_plain (unwrap packet.body)).bind ?_
    rintro layer _ rfl
    exact .done rfl

def LayersFit (octets : Bytes) : Prop :=
  ∀ count layer, layerAt count octets = some layer → layer.length < wordSize

theorem LayersFit.here (fit : LayersFit data) : data.length < wordSize := fit 0 data rfl

theorem LayersFit.beneath {layer : Unwrapped} (fit : LayersFit data)
    (found : peel data = .ok (.inr layer)) : LayersFit layer.data := by
  intro count inner reached
  apply fit (count + 1) inner
  rw [layerAt_of_layer found]
  exact reached

theorem look_in_range (depth room : Nat) (fit : LayersFit data) :
    Ranged.look depth room data = some (look depth room data) := by
  have peeled := (tracks_peel fit.here).run_eq
  induction depth, room, data using look.induct with
  | case1 depth room data error failed =>
      rw [Ranged.look, peeled, look, failed]
  | case2 depth room data literal found =>
      rw [Ranged.look, peeled, look, found]
  | case3 depth data inner found =>
      rw [Ranged.look, peeled, look, found]
  | case4 depth data inner found room ih =>
      have below : LayersFit inner := fit.beneath found
      rw [Ranged.look, peeled, look, found]
      exact ih below (tracks_peel below.here).run_eq
  | case5 room data inner found =>
      rw [Ranged.look, peeled, look, found]
  | case6 room data inner found depth ih =>
      have below : LayersFit inner := fit.beneath found
      rw [Ranged.look, peeled, look, found]
      exact ih below (tracks_peel below.here).run_eq

end Layers

section Whole

variable {source : Source} {key : String}

structure Fits (source : Source) (key : String) : Prop where
  text : source.contents.length < wordSize
  layers : ∀ inner, reveal source key = .ok inner → LayersFit inner

theorem tracks_readMessage (fits : source.contents.length < wordSize) :
    Tracks (fun read plain => read = plain ∧ ∀ body ∈ plain.sessions, body.length < wordSize)
      (Ranged.readMessage source) (readMessage source) := by
  unfold Ranged.readMessage readMessage
  cases source.failure with
  | some detail => exact .failed _
  | none =>
      cases decoded : Text.Utf8.decode? source.contents with
      | none => exact .failed _
      | some text =>
          dsimp only
          cases armored : Armor.decode? text with
          | none => exact .failed _
          | some octets =>
              have shorter : octets.length < wordSize :=
                Nat.lt_of_le_of_lt (Nat.le_trans (Armor.length_of_decode armored)
                  (Text.Utf8.length_of_decode decoded)) fits
              refine ((Reader.tracks_readAll shorter).knowing
                (fun packets => Packet.readAll octets = .ok packets) fun _ read => read).bind ?_
              rintro packets _ ⟨rfl, read⟩
              refine (Checked.tracks_plain (gather [] packets)).knowing _ ?_
              intro message gathered body member
              exact Nat.lt_trans (gathered_lt read gathered body member) shorter

theorem tracks_reveal (fits : source.contents.length < wordSize) (key : String) :
    Tracks Eq (Ranged.reveal source key) (reveal source key) := by
  refine (tracks_readMessage fits).bind ?_
  rintro message _ ⟨rfl, fit⟩
  exact tracks_trySessions message.data _ fit

theorem decryptWithin_in_range (fits : Fits source key) (depth : Nat) :
    Ranged.decryptWithin depth source key = some (decryptWithin depth source key) := by
  have revealed := (tracks_reveal fits.text key).run_eq
  cases shown : reveal source key with
  | error error =>
      rw [Ranged.decryptWithin, revealed, decryptWithin, shown]
  | ok inner =>
      rw [Ranged.decryptWithin, revealed, decryptWithin, shown]
      exact look_in_range depth inner.length (fits.layers inner shown)

/-- However deep a message is followed, no operation leaves its range and no cipher is given a key
of another size; and a message whose layers come to an end is answered, with its content or with an
error. -/
theorem opening_stays_in_range (fits : Fits source key) :
    (∀ depth, Ranged.decryptWithin depth source key = some (decryptWithin depth source key)) ∧
      ((∀ inner, reveal source key = .ok inner → ∃ count, layerAt count inner = none) →
        ∃ answer depth, ∀ more, depth ≤ more →
          Ranged.decryptWithin more source key = some (some answer)) := by
  refine ⟨decryptWithin_in_range fits, ?_⟩
  intro ends
  cases revealed : reveal source key with
  | error error =>
      refine ⟨.error error, 0, ?_⟩
      intro more _
      rw [decryptWithin_in_range fits, decryptWithin, revealed]
  | ok inner =>
      obtain ⟨count, ended⟩ := ends inner revealed
      obtain ⟨answer, done⟩ := look_of_layers_end ended (Nat.le_refl inner.length)
      refine ⟨answer, count, ?_⟩
      intro more deeper
      rw [decryptWithin_in_range fits, decryptWithin_of_reveal revealed]
      exact congrArg some (look_more done deeper (Nat.le_refl _))

end Whole

section Notes

theorem length_ofPackets_pair (session data : Bytes) :
    (Source.ofPackets [⟨Packet.Tag.sessionKey, session⟩,
        ⟨Packet.Tag.protectedData, data⟩]).contents.length ≤
      10 * (session.length + data.length) + 200 := by
  have first := length_segments_le session
  have second := length_segments_le data
  have framed := Armor.length_encode_framed_le
    ([⟨Packet.Tag.sessionKey, session⟩, ⟨Packet.Tag.protectedData, data⟩].flatMap
      fun packet : Packet => (0xC0 ||| packet.tag) :: Packet.segments packet.body)
    (fun header (member : header ∈ []) => (List.not_mem_nil member).elim)
  rw [Source.ofPackets, Source.ofBytes, Source.contents, List.flatten_singleton, Text.Utf8.bytes,
    String.toList_ofList]
  simp only [List.flatMap_cons, List.flatMap_nil, List.append_nil, List.length_append,
    List.length_cons, List.length_nil] at framed ⊢
  omega

theorem note_text_fits {inner : Bytes} (short : inner.length ≤ 1000) :
    (Source.ofPackets [⟨Packet.Tag.sessionKey, noteSession (Text.Utf8.bytes "key")⟩,
      ⟨Packet.Tag.protectedData, dataVersion ::
        protect noteKey.block (fillerBlock (Sized.filled 16 5) ++ inner)⟩]).contents.length <
      wordSize := by
  have session : (noteSession (Text.Utf8.bytes "key")).length = 37 := by
    simp [noteSession, Specifier.write, noteKey]
  have whole := length_ofPackets_pair (noteSession (Text.Utf8.bytes "key"))
    (dataVersion :: protect noteKey.block (fillerBlock (Sized.filled 16 5) ++ inner))
  have trailer : detectionLength = 22 := rfl
  have block : fillerLength = 18 := rfl
  rw [List.length_cons, length_protect, List.length_append, length_fillerBlock, session] at whole
  have room : 20000 < wordSize := by decide
  omega

theorem layerAt_noteInside (count : Nat) :
    layerAt 1 noteInside = some noteLayer ∧ layerAt (count + 2) noteInside = none := by
  have outer : beneath noteInside = some noteLayer := by decide +kernel
  have last : beneath noteLayer = none := by decide +kernel
  constructor
  · rw [layerAt, outer]
    rfl
  · rw [layerAt, outer, Option.bind_some, layerAt, last]
    rfl

theorem noteSource_fits : Fits noteSource "key" := by
  refine ⟨note_text_fits (by decide), ?_⟩
  intro inner revealed count layer reached
  rw [reveal_noteSource] at revealed
  cases revealed
  match count with
  | 0 =>
      cases reached
      decide
  | 1 =>
      rw [(layerAt_noteInside 0).1] at reached
      cases reached
      decide
  | count + 2 =>
      rw [(layerAt_noteInside count).2] at reached
      cases reached

theorem note_stays_in_range :
    Fits noteSource "key" ∧
      (∀ depth, Ranged.decryptWithin depth noteSource "key" =
        some (decryptWithin depth noteSource "key")) ∧
      ∃ answer depth, ∀ more, depth ≤ more →
        Ranged.decryptWithin more noteSource "key" = some (some answer) := by
  obtain ⟨within, answered⟩ := opening_stays_in_range noteSource_fits
  refine ⟨noteSource_fits, within, answered ?_⟩
  intro inner revealed
  rw [reveal_noteSource] at revealed
  cases revealed
  exact ⟨2, (layerAt_noteInside 0).2⟩

theorem endlessMessage_fits : Fits (Source.ofPackets endlessMessage) "key" := by
  have size : endless.length = 131 := by decide +kernel
  refine ⟨note_text_fits (by rw [size]; decide), ?_⟩
  intro inner revealed count layer reached
  rw [reveal_endlessMessage] at revealed
  cases revealed
  rw [layerAt_endless] at reached
  cases reached
  rw [size]
  decide

/-- The message below each of whose layers is the same layer again stays in range at every depth and
is answered at none, so it does not end in an error. -/
theorem endless_message_in_range_unanswered :
    Fits (Source.ofPackets endlessMessage) "key" ∧
      ∀ depth, Ranged.decryptWithin depth (Source.ofPackets endlessMessage) "key" =
        some none := by
  refine ⟨endlessMessage_fits, ?_⟩
  intro depth
  rw [decryptWithin_in_range endlessMessage_fits, decryptWithin_of_reveal reveal_endlessMessage]
  cases done : look depth endless.length endless with
  | none => rfl
  | some answer =>
      obtain ⟨count, ended⟩ := layers_end_of_look done
      rw [layerAt_endless] at ended
      cases ended

end Notes

end DeadDrop.Envelope
