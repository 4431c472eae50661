import DeadDrop.Proofs.Envelope.Attempt
import DeadDrop.Proofs.Envelope.Integrity
import DeadDrop.Proofs.Packet.Acceptance

/-!
What a wrong key is told. A message that opens with some key has a shape, and the shape is judged
before the key comes in: its packets, its first session key packet as far as the hidden session
key, the version and the length of its protected data. What is left to go wrong with another key is
that no cipher and size fit the session key, that the filler does not repeat its octets, or that the
digest is not right, in this order; a fault behind them is met only with a key that passes them all.
-/

namespace DeadDrop

theorem Cipher.Algorithm.number_of_ofNumber? {number : UInt8} {algorithm : Cipher.Algorithm}
    (named : ofNumber? number = some algorithm) : algorithm.number = number := by
  simpa using List.find?_some named

namespace Envelope

open Cipher (Feedback)
open Packet (Cursor)

section Locks

/-- What a session key packet says to every passphrase. Without hidden octets the derived key is
the session key. -/
structure Lock where
  algorithm : Cipher.Algorithm
  specifier : Specifier
  hidden : Bytes

namespace Lock

def body (lock : Lock) : Bytes :=
  sessionKeyVersion :: lock.algorithm.number :: (lock.specifier.write ++ lock.hidden)

def derived (lock : Lock) (passphrase : Bytes) : Cipher.Key lock.algorithm :=
  lock.specifier.key passphrase lock.algorithm

def unwrapped (lock : Lock) (passphrase : Bytes) : Bytes :=
  (Feedback.start.apply (lock.derived passphrase).block .decrypt lock.hidden).2

end Lock

inductive Unfit : Bytes → Prop where
  | unknown {number : UInt8} {key : Bytes} :
      (∀ algorithm : Cipher.Algorithm, algorithm.number ≠ number) → Unfit (number :: key)
  | missized {algorithm : Cipher.Algorithm} {key : Bytes} :
      key.length ≠ algorithm.keySize → Unfit (algorithm.number :: key)

namespace Lock

def Refuses (lock : Lock) (passphrase : Bytes) : Prop :=
  lock.hidden ≠ [] ∧ Unfit (lock.unwrapped passphrase)

inductive Gives (lock : Lock) (passphrase : Bytes) :
    {algorithm : Cipher.Algorithm} → Cipher.Key algorithm → Prop where
  | derived : lock.hidden = [] → Gives lock passphrase (lock.derived passphrase)
  | wrapped {algorithm : Cipher.Algorithm} {key : Cipher.Key algorithm} :
      lock.unwrapped passphrase = algorithm.number :: key.bytes → Gives lock passphrase key

end Lock

theorem unfit_or_key {octets : Bytes} (some : octets ≠ []) :
    Unfit octets ∨
      ∃ (algorithm : Cipher.Algorithm) (key : Cipher.Key algorithm),
        octets = algorithm.number :: key.bytes := by
  cases octets with
  | nil => exact absurd rfl some
  | cons number key =>
      cases named : Cipher.Algorithm.ofNumber? number with
      | none =>
          refine .inl (.unknown fun algorithm same => ?_)
          rw [← same, Cipher.Algorithm.ofNumber_number] at named
          cases named
      | some algorithm =>
          obtain rfl := Cipher.Algorithm.number_of_ofNumber? named
          by_cases fits : key.length = algorithm.keySize
          · exact .inr ⟨algorithm, ⟨key, fits⟩, rfl⟩
          · exact .inl (.missized fits)

theorem plausibleKey_eq_none_iff {octets : Bytes} (some : octets ≠ []) :
    plausibleKey octets = none ↔ Unfit octets := by
  constructor
  · intro refused
    refine (unfit_or_key some).resolve_right ?_
    rintro ⟨algorithm, key, rfl⟩
    rw [plausibleKey_own algorithm key.length_eq] at refused
    cases refused
  · intro unfit
    cases unfit with
    | @unknown number key other =>
        have unnamed : Cipher.Algorithm.ofNumber? number = none :=
          Option.eq_none_iff_forall_ne_some.mpr fun algorithm named =>
            other algorithm (Cipher.Algorithm.number_of_ofNumber? named)
        rw [plausibleKey, unnamed]
    | @missized algorithm key other =>
        rw [plausibleKey, Cipher.Algorithm.ofNumber_number]
        exact if_neg other

theorem length_unwrapped (lock : Lock) (passphrase : Bytes) :
    (lock.unwrapped passphrase).length = lock.hidden.length := Feedback.length_apply _ _ _ _

theorem unwrapped_ne_nil {lock : Lock} (some : lock.hidden ≠ []) (passphrase : Bytes) :
    lock.unwrapped passphrase ≠ [] := by
  rwa [← List.length_pos_iff, length_unwrapped, List.length_pos_iff]

theorem unlock_body (lock : Lock) (passphrase : Bytes) :
    unlock lock.body passphrase = .ok
      (if lock.hidden = [] then some (lock.algorithm, (lock.derived passphrase).bytes)
      else plausibleKey (lock.unwrapped passphrase)) := by
  have named : cipherOf lock.algorithm.number = .ok lock.algorithm := by
    rw [cipherOf, Cipher.Algorithm.ofNumber_number]
  have derived : keyFor lock.algorithm (lock.specifier.derive passphrase lock.algorithm.keySize) =
      .ok (lock.derived passphrase) := keyFor_eq_ok_iff.mpr rfl
  have shape : unlock lock.body passphrase =
      if (Cursor.mk lock.hidden).isEmpty then
        .ok (some (lock.algorithm, (lock.derived passphrase).bytes))
      else .ok (plausibleKey (lock.unwrapped passphrase)) := by
    simp [unlock, Lock.body, Cursor.octet, named, Specifier.read_write, derived, bind,
      Except.bind, pure, Except.pure]
    rfl
  rw [shape]
  simp only [Cursor.isEmpty, List.isEmpty_iff]
  split <;> rfl

theorem number_of_cipherOf {number : UInt8} {algorithm : Cipher.Algorithm}
    (named : cipherOf number = .ok algorithm) : algorithm.number = number := by
  unfold cipherOf at named
  split at named
  · next found =>
      cases named
      exact Cipher.Algorithm.number_of_ofNumber? found
  · cases named

theorem lock_of_unlock {body passphrase : Bytes} {grant : Option (Cipher.Algorithm × Bytes)}
    (done : unlock body passphrase = .ok grant) : ∃ lock : Lock, body = lock.body := by
  obtain ⟨⟨version, early⟩, first, done⟩ := bind_eq_ok_iff.mp done
  dsimp only at done
  by_cases current : version = sessionKeyVersion
  · rw [if_neg (not_not_intro current)] at done
    obtain ⟨-, -, done⟩ := bind_eq_ok_iff.mp done
    obtain ⟨⟨number, middle⟩, second, done⟩ := bind_eq_ok_iff.mp done
    obtain ⟨algorithm, named, done⟩ := bind_eq_ok_iff.mp done
    obtain ⟨⟨specifier, last⟩, third, -⟩ := bind_eq_ok_iff.mp done
    have start : body = version :: early.rest := Cursor.of_octet first
    have numbered : algorithm.number = number := number_of_cipherOf named
    have specified : middle.rest = specifier.write ++ last.rest := Specifier.of_read third
    refine ⟨⟨algorithm, specifier, last.rest⟩, ?_⟩
    rw [start, current, Cursor.of_octet second, ← numbered, specified]
    rfl
  · rw [if_pos current] at done
    cases done

theorem unlock_of_refuses {lock : Lock} {passphrase : Bytes} (refuses : lock.Refuses passphrase) :
    unlock lock.body passphrase = .ok none := by
  obtain ⟨some, unfit⟩ := refuses
  rw [unlock_body, if_neg some,
    (plausibleKey_eq_none_iff (unwrapped_ne_nil some passphrase)).mpr unfit]

theorem unlock_of_gives {lock : Lock} {passphrase : Bytes} {algorithm : Cipher.Algorithm}
    {key : Cipher.Key algorithm} (gives : lock.Gives passphrase key) :
    unlock lock.body passphrase = .ok (some (algorithm, key.bytes)) := by
  cases gives with
  | derived none => rw [unlock_body, if_pos none]
  | wrapped shown =>
      have some : lock.hidden ≠ [] := by
        intro none
        have length := length_unwrapped lock passphrase
        rw [shown, none] at length
        cases length
      rw [unlock_body, if_neg some, shown, plausibleKey_own algorithm key.length_eq]

theorem refuses_or_gives (lock : Lock) (passphrase : Bytes) :
    lock.Refuses passphrase ∨
      ∃ (algorithm : Cipher.Algorithm) (key : Cipher.Key algorithm),
        lock.Gives passphrase key := by
  by_cases empty : lock.hidden = []
  · exact .inr ⟨lock.algorithm, lock.derived passphrase, .derived empty⟩
  · rcases unfit_or_key (unwrapped_ne_nil empty passphrase) with unfit | ⟨algorithm, key, shown⟩
    · exact .inl ⟨empty, unfit⟩
    · exact .inr ⟨algorithm, key, .wrapped shown⟩

end Locks

section Data

def Repeats (plain : Bytes) : Prop := (plain.drop 14).take 2 = (plain.drop 16).take 2

def Digested (plain : Bytes) : Prop :=
  (plain.drop (plain.length - detectionLength)).take 2 = detectionHeader ∧
    plain.drop (plain.length - 20) = Digest.sha1.ofBytes (plain.take (plain.length - 20))

def between (plain : Bytes) : Bytes :=
  (plain.take (plain.length - detectionLength)).drop fillerLength

variable {plain : Bytes}

theorem verify_of_not_repeats (other : ¬ Repeats plain) : verify plain = .ok none := if_pos other

theorem verify_of_not_digested (long : fillerLength + detectionLength ≤ plain.length)
    (repeats : Repeats plain) (other : ¬ Digested plain) : verify plain = .error .integrity := by
  have octets := detection_octets (Nat.le_trans (Nat.le_add_left _ _) long)
  have same : (plain.drop 14).take 2 = (plain.drop 16).take 2 := repeats
  rw [verify, if_neg (not_not_intro same)]
  simp only [octets]
  rw [if_pos]
  by_contra sound
  obtain ⟨header, digest⟩ := not_or.mp sound
  exact other ⟨Decidable.not_not.mp header, (Decidable.not_not.mp digest).symm⟩

theorem verify_of_digested (long : fillerLength + detectionLength ≤ plain.length)
    (repeats : Repeats plain) (digested : Digested plain) :
    verify plain = .ok (some (between plain)) :=
  (verify_eq_ok_iff long).mpr ⟨long, repeats, digested.1, digested.2, rfl⟩

theorem openProtected_long {ciphertext : Bytes} {algorithm : Cipher.Algorithm}
    (key : Cipher.Key algorithm) (long : fillerLength + detectionLength ≤ ciphertext.length) :
    openProtected (dataVersion :: ciphertext) algorithm key.bytes =
      verify (Feedback.start.apply key.block .decrypt ciphertext).2 := by
  simp only [openProtected, ne_eq, not_true_eq_false, if_false, if_neg (Nat.not_lt.mpr long),
    keyFor_eq_ok_iff.mpr rfl, bind, Except.bind]

end Data

section Message

/-- What every key finds: the packets, the lock in the first session key packet, and enough
ciphertext for filler and digest. -/
structure Source.Locked (source : Source) (lock : Lock) (ciphertext : Bytes) : Prop where
  packets : ∃ before after, source.Holds
      (before ++ ⟨Packet.Tag.protectedData, dataVersion :: ciphertext⟩ :: after) ∧
    (∀ packet ∈ before, Announces packet) ∧ (sessionBodies before).head? = some lock.body
  long : fillerLength + detectionLength ≤ ciphertext.length

variable {source : Source} {lock : Lock} {ciphertext : Bytes} {key : String}

theorem locked_of_reveal {inner : Bytes} (done : reveal source key = .ok inner) :
    ∃ lock ciphertext, source.Locked lock ciphertext := by
  obtain ⟨opening, verified⟩ := opening_of_reveal done
  obtain ⟨lock, body⟩ := lock_of_unlock opening.unlocked
  have first := opening.first
  rw [body] at first
  have same : opening.plain.length = opening.ciphertext.length := Feedback.length_apply _ _ _ _
  exact ⟨lock, opening.ciphertext, ⟨opening.before, opening.after,
    ⟨opening.text, opening.octets, opening.whole, opening.decoded, opening.armored,
      opening.packets⟩, opening.announced, first⟩, same ▸ verified.long⟩

def recovered {algorithm : Cipher.Algorithm} (key : Cipher.Key algorithm) (ciphertext : Bytes) :
    Bytes :=
  (Feedback.start.apply key.block .decrypt ciphertext).2

theorem reveal_of_refuses (locked : source.Locked lock ciphertext)
    (refuses : lock.Refuses (Text.Utf8.bytes key)) : reveal source key = .error .invalidKey := by
  obtain ⟨before, after, holds, announced, first⟩ := locked.packets
  rw [reveal_of_holds holds announced first, trySessions_cons, unlock_of_refuses refuses]
  rfl

/-- With a session key, the answer is the verdict on what it makes of the ciphertext. -/
theorem reveal_of_gives (locked : source.Locked lock ciphertext) {algorithm : Cipher.Algorithm}
    {dataKey : Cipher.Key algorithm} (gives : lock.Gives (Text.Utf8.bytes key) dataKey) :
    reveal source key =
      verify (recovered dataKey ciphertext) >>= fun inner =>
        inner.elim (.error .invalidKey) .ok := by
  obtain ⟨before, after, holds, announced, first⟩ := locked.packets
  have judged := openProtected_long dataKey locked.long
  rw [reveal_of_holds holds announced first, trySessions_cons, unlock_of_gives gives]
  simp only [bind, Except.bind, judged, recovered]
  cases verify (Feedback.start.apply dataKey.block .decrypt ciphertext).2 with
  | error error => rfl
  | ok inner => cases inner <;> rfl

theorem long_recovered (locked : source.Locked lock ciphertext) {algorithm : Cipher.Algorithm}
    (dataKey : Cipher.Key algorithm) :
    fillerLength + detectionLength ≤ (recovered dataKey ciphertext).length := by
  rw [recovered, Feedback.length_apply]
  exact locked.long

section Verdicts

variable (locked : source.Locked lock ciphertext) {algorithm : Cipher.Algorithm}
  {dataKey : Cipher.Key algorithm} (gives : lock.Gives (Text.Utf8.bytes key) dataKey)
include locked gives

theorem reveal_of_not_repeats (other : ¬ Repeats (recovered dataKey ciphertext)) :
    reveal source key = .error .invalidKey := by
  rw [reveal_of_gives locked gives, verify_of_not_repeats other]
  rfl

theorem reveal_of_not_digested (repeats : Repeats (recovered dataKey ciphertext))
    (other : ¬ Digested (recovered dataKey ciphertext)) :
    reveal source key = .error .integrity := by
  rw [reveal_of_gives locked gives,
    verify_of_not_digested (long_recovered locked dataKey) repeats other]
  rfl

theorem reveal_of_digested (repeats : Repeats (recovered dataKey ciphertext))
    (digested : Digested (recovered dataKey ciphertext)) :
    reveal source key = .ok (between (recovered dataKey ciphertext)) := by
  rw [reveal_of_gives locked gives,
    verify_of_digested (long_recovered locked dataKey) repeats digested]
  rfl

end Verdicts

theorem decryptWithin_of_error {error : Error} (failed : reveal source key = .error error)
    (depth : Nat) : decryptWithin depth source key = some (.error error) := by
  rw [decryptWithin, failed]

/-- What a key is told, by what becomes of the session key and of the data under it. -/
structure Told (source : Source) (lock : Lock) (ciphertext : Bytes) (key : String) : Prop where
  settled : lock.Refuses (Text.Utf8.bytes key) ∨
    ∃ (algorithm : Cipher.Algorithm) (dataKey : Cipher.Key algorithm),
      lock.Gives (Text.Utf8.bytes key) dataKey
  refused : lock.Refuses (Text.Utf8.bytes key) →
    ∀ depth, decryptWithin depth source key = some (.error .invalidKey)
  unrepeated : ∀ {algorithm : Cipher.Algorithm} (dataKey : Cipher.Key algorithm),
    lock.Gives (Text.Utf8.bytes key) dataKey → ¬ Repeats (recovered dataKey ciphertext) →
    ∀ depth, decryptWithin depth source key = some (.error .invalidKey)
  undigested : ∀ {algorithm : Cipher.Algorithm} (dataKey : Cipher.Key algorithm),
    lock.Gives (Text.Utf8.bytes key) dataKey → Repeats (recovered dataKey ciphertext) →
    ¬ Digested (recovered dataKey ciphertext) →
    ∀ depth, decryptWithin depth source key = some (.error .integrity)
  passed : ∀ {algorithm : Cipher.Algorithm} (dataKey : Cipher.Key algorithm),
    lock.Gives (Text.Utf8.bytes key) dataKey → Repeats (recovered dataKey ciphertext) →
    Digested (recovered dataKey ciphertext) →
    ∀ depth, decryptWithin depth source key =
      look depth (between (recovered dataKey ciphertext)).length
        (between (recovered dataKey ciphertext))
  blameless : ∀ depth error, decryptWithin depth source key = some (.error error) →
    error = .invalidKey ∨ error = .integrity ∨
      ∃ (algorithm : Cipher.Algorithm) (dataKey : Cipher.Key algorithm),
        lock.Gives (Text.Utf8.bytes key) dataKey ∧ Repeats (recovered dataKey ciphertext) ∧
          Digested (recovered dataKey ciphertext)

/-- Only a key that passes both checks meets a fault that is not its own. -/
theorem passed_of_error (locked : source.Locked lock ciphertext) {depth : Nat} {error : Error}
    (failed : decryptWithin depth source key = some (.error error)) :
    error = .invalidKey ∨ error = .integrity ∨
      ∃ (algorithm : Cipher.Algorithm) (dataKey : Cipher.Key algorithm),
        lock.Gives (Text.Utf8.bytes key) dataKey ∧ Repeats (recovered dataKey ciphertext) ∧
          Digested (recovered dataKey ciphertext) := by
  rcases refuses_or_gives lock (Text.Utf8.bytes key) with refuses | ⟨algorithm, dataKey, gives⟩
  · rw [decryptWithin_of_error (reveal_of_refuses locked refuses)] at failed
    cases failed
    exact .inl rfl
  · by_cases repeats : Repeats (recovered dataKey ciphertext)
    · by_cases digested : Digested (recovered dataKey ciphertext)
      · exact .inr (.inr ⟨algorithm, dataKey, gives, repeats, digested⟩)
      · rw [decryptWithin_of_error (reveal_of_not_digested locked gives repeats digested)] at failed
        cases failed
        exact .inr (.inl rfl)
    · rw [decryptWithin_of_error (reveal_of_not_repeats locked gives repeats)] at failed
      cases failed
      exact .inl rfl

theorem told_of_locked (locked : source.Locked lock ciphertext) (key : String) :
    Told source lock ciphertext key where
  settled := refuses_or_gives lock _
  refused refuses := decryptWithin_of_error (reveal_of_refuses locked refuses)
  unrepeated _ gives other := decryptWithin_of_error (reveal_of_not_repeats locked gives other)
  undigested _ gives repeats other :=
    decryptWithin_of_error (reveal_of_not_digested locked gives repeats other)
  passed _ gives repeats digested depth := by
    rw [decryptWithin, reveal_of_digested locked gives repeats digested]
  blameless _ _ failed := passed_of_error locked failed

/-- A message that opens with some key, at whatever depth, has a shape that every other key finds as
well, and is told by what becomes of the session key and of the data under it. -/
theorem other_keys_are_told {depth : Nat} {content : Decrypted}
    (opens : decryptWithin depth source key = some (.ok content)) :
    (∃ lock ciphertext, source.Locked lock ciphertext) ∧
      ∀ lock ciphertext, source.Locked lock ciphertext →
        ∀ other, Told source lock ciphertext other := by
  obtain ⟨inner, revealed, -⟩ := decryptWithin_eq_ok_iff.mp opens
  exact ⟨locked_of_reveal revealed, fun _ _ locked other => told_of_locked locked other⟩

end Message

section Note

def noteSource : Source := .ofPackets [
  ⟨Packet.Tag.sessionKey, noteSession (Text.Utf8.bytes "key")⟩,
  ⟨Packet.Tag.protectedData, noteData⟩]

def noteLock : Lock where
  algorithm := .aes128
  specifier := .simple .sha1
  hidden := (Feedback.start.apply
    ((Specifier.simple .sha1).key (Text.Utf8.bytes "key") .aes128).block .encrypt
      (Cipher.Algorithm.aes256.number :: noteKey.bytes)).2

theorem noteSource_holds : noteSource.Holds [
    ⟨Packet.Tag.sessionKey, noteSession (Text.Utf8.bytes "key")⟩,
    ⟨Packet.Tag.protectedData, noteData⟩] := by
  have small : Packet.Tag.sessionKey < 64 ∧ Packet.Tag.protectedData < 64 := by decide
  refine ofPackets_holds (List.forall_mem_cons.mpr ⟨small.1, ?_⟩)
  intro packet member
  rw [List.mem_singleton.mp member]
  exact small.2

theorem reveal_noteSource : reveal noteSource "key" = .ok noteInside := by
  have opened : openProtected noteData .aes256 noteKey.bytes = .ok (some noteInside) :=
    openProtected_protect (Sized.filled 16 5) noteInside (keyFor_eq_ok_iff.mpr rfl)
  rw [reveal_of_pair noteSource_holds]
  exact trySessions_eq_ok_iff.mpr ⟨_, [], _, _, rfl, unlock_noteSession _, opened⟩

theorem noteSource_opens : decrypt noteSource "key" = some (.ok note.decrypted) :=
  decryptWithin_eq_ok_iff.mpr
    ⟨noteInside, reveal_noteSource, look_of_carries noteInside_carries _ (Nat.le_refl _)⟩

theorem noteSource_locked : ∃ ciphertext, noteSource.Locked noteLock ciphertext := by
  refine ⟨protect noteKey.block (fillerBlock (Sized.filled 16 5) ++ noteInside),
    ⟨[⟨Packet.Tag.sessionKey, noteSession (Text.Utf8.bytes "key")⟩], [], noteSource_holds, ?_, ?_⟩,
    ?_⟩
  · intro packet member
    rw [List.mem_singleton.mp member]
    exact .inl rfl
  · rw [sessionBodies_cons_sessionKey [] rfl]
    rfl
  · rw [length_protect, List.length_append, length_fillerBlock]
    omega

theorem note_tells_another_key :
    decrypt noteSource "key" = some (.ok note.decrypted) ∧
      decrypt noteSource "kei" = some (.error .invalidKey) := by
  obtain ⟨ciphertext, locked⟩ := noteSource_locked
  have told := (other_keys_are_told noteSource_opens).2 _ _ locked "kei"
  have some : noteLock.hidden ≠ [] := by decide +kernel
  have unknown : plausibleKey (noteLock.unwrapped (Text.Utf8.bytes "kei")) = none := by
    decide +kernel
  exact ⟨noteSource_opens,
    told.refused ⟨some, (plausibleKey_eq_none_iff (unwrapped_ne_nil some _)).mp unknown⟩ _⟩

end Note

end Envelope

end DeadDrop
