import DeadDrop.Proofs.Exchange.Record
import Mathlib.Algebra.GroupWithZero.Nat

/-!
How long the record of a secret gets. It is as long as the record without a message, and the
message with what its escapes add. A mark adds one octet and any other control character five, so
escapes can double a message at most as long as line feeds are the only control characters in it.
The rest of the record has room in a hundred octets.
-/

namespace DeadDrop

open Text.Utf8 (encode encode_append bytes)

theorem Text.Utf8.length_bytes (text : String) : (bytes text).length = text.utf8ByteSize := by
  obtain ⟨chars, rfl⟩ : ∃ chars, text = String.ofList chars :=
    ⟨text.toList, String.ofList_toList.symm⟩
  rw [String.utf8ByteSize, String.toByteArray_ofList, List.utf8Encode, List.size_toByteArray,
    bytes, String.toList_ofList, encode]

section Escapes

namespace Json

def marks : List Char := ['"', '\\', '\x08', '\t', '\n', '\x0c', '\r']

def isSpelled (c : Char) : Bool := c.toNat < 0x20 && !marks.contains c

def surplus (c : Char) : Nat :=
  if isSpelled c then 5 else if marks.contains c then 1 else 0

theorem length_escapeChar (c : Char) :
    (encode (escapeChar c)).length = (String.utf8EncodeChar c).length + surplus c := by
  by_cases control : c.toNat < 0x20
  · have all : ∀ number < 0x20, (encode (escapeChar (Char.ofNat number))).length =
        (String.utf8EncodeChar (Char.ofNat number)).length + surplus (Char.ofNat number) := by
      decide +kernel
    have this := all c.toNat control
    rw [Char.ofNat_toNat] at this
    exact this
  · unfold escapeChar
    split
    any_goals decide
    next notQuote notSlash notFeed notReturn notTab =>
      have other : ¬ isSpelled c ∧ ¬ marks.contains c := by
        have early : c ≠ '\x08' ∧ c ≠ '\x0c' :=
          ⟨fun same => control (same ▸ by decide), fun same => control (same ▸ by decide)⟩
        constructor
        · simp [isSpelled, control]
        · simp only [marks, List.contains_eq_mem, List.mem_cons, List.not_mem_nil, or_false,
            decide_eq_true_eq, not_or]
          exact ⟨notQuote, notSlash, early.1, notTab, notFeed, early.2, notReturn⟩
      rw [if_neg (by omega), if_neg (by omega), if_neg control, surplus, if_neg other.1,
        if_neg other.2, encode, List.flatMap_singleton, Nat.add_zero]

theorem length_writeText (text : String) :
    (encode (writeText text)).length = text.utf8ByteSize + (text.toList.map surplus).sum + 2 := by
  have inside (chars : List Char) : (encode (chars.flatMap escapeChar)).length =
      (encode chars).length + (chars.map surplus).sum := by
    induction chars with
    | nil => rfl
    | cons c rest ih =>
        rw [List.flatMap_cons, encode_append, Text.Utf8.encode_cons, List.length_append,
          List.length_append, length_escapeChar, ih, List.map_cons, List.sum_cons]
        omega
  have mark : (String.utf8EncodeChar '"').length = 1 ∧ (encode ['"']).length = 1 := by decide
  rw [writeText, List.cons_append, Text.Utf8.encode_cons, encode_append, List.length_append,
    List.length_append, inside, ← bytes, Text.Utf8.length_bytes]
  omega

/-- An escape does not make it more than twice as long. -/
def Mild (c : Char) : Prop := 0x20 ≤ c.toNat ∨ c = '\n'

theorem not_isSpelled_of_mild {c : Char} (mild : Mild c) : isSpelled c = false := by
  rcases mild with shown | rfl
  · have large : ¬ c.toNat < 0x20 := Nat.not_lt.mpr shown
    simp [isSpelled, large]
  · decide

/-- Escapes of two at most double a text, and every other adds four octets to that. -/
theorem surplus_sum_le (chars : List Char) :
    (chars.map surplus).sum ≤ (encode chars).length + 4 * chars.countP isSpelled := by
  have one (c : Char) :
      surplus c ≤ (String.utf8EncodeChar c).length + 4 * [c].countP isSpelled := by
    have some := Char.utf8Size_pos c
    rw [String.length_utf8EncodeChar, surplus]
    by_cases spelled : isSpelled c
    · rw [if_pos spelled, List.countP_singleton, if_pos spelled]
      omega
    · rw [if_neg spelled]
      split <;> omega
  induction chars with
  | nil => exact Nat.le_refl 0
  | cons c rest ih =>
      have here := one c
      have counted : ([c] ++ rest).countP isSpelled = [c].countP isSpelled + rest.countP isSpelled :=
        List.countP_append
      rw [List.singleton_append] at counted
      rw [List.map_cons, List.sum_cons, Text.Utf8.encode_cons, List.length_append, counted]
      omega

end Json

end Escapes

section Records

namespace Secret

def frame (secret : Secret) : Nat := (bytes ({ secret with message := "" }).encode).length

def surplus (secret : Secret) : Nat := (secret.message.toList.map Json.surplus).sum

theorem length_encode (secret : Secret) :
    (bytes secret.encode).length = secret.frame + secret.size + secret.surplus := by
  have text := Json.length_writeText secret.message
  have none : (Text.Utf8.encode (Json.writeText "")).length = 2 := by decide
  unfold frame
  simp only [encode, bytes_ofList, members, Json.writeRecord]
  by_cases unset : secret.expiration = 0
  · simp only [if_pos unset, List.nil_append, Json.writeMembers_cons, List.cons_append,
      Text.Utf8.encode_cons, encode_append, Json.encode_writeMember, List.length_append,
      List.length_cons, Json.Value.write, size, surplus, text, none]
    omega
  · simp only [if_neg unset, List.nil_append, Json.writeMembers_cons, Json.writeOthers,
      List.flatMap_cons, List.cons_append, Text.Utf8.encode_cons, encode_append,
      Json.encode_writeMember, List.length_append, List.length_cons, Json.Value.write, size,
      surplus, text, none]
    omega

theorem frame_le {secret : Secret} {lifetime : Lifetime}
    (named : secret.lifetime? = some lifetime) : secret.frame ≤ 50 := by
  obtain ⟨expiration, message, oneTime⟩ := secret
  have seconds : lifetime.seconds = expiration := Lifetime.seconds_of_ofSeconds? named
  subst seconds
  -- What the message is does not matter here.
  change (bytes (Secret.encode ⟨lifetime.seconds, "", oneTime⟩)).length ≤ 50
  cases lifetime <;> cases oneTime <;> decide +kernel

theorem length_encode_le {secret : Secret} {lifetime : Lifetime}
    (named : secret.lifetime? = some lifetime) :
    (bytes secret.encode).length ≤
      2 * secret.size + 4 * secret.message.toList.countP Json.isSpelled + 50 := by
  have frame := frame_le named
  have escapes := Json.surplus_sum_le secret.message.toList
  rw [← bytes, Text.Utf8.length_bytes] at escapes
  rw [length_encode, size, surplus]
  omega

theorem length_encode_ofLifetime {message : String} (lifetime : Lifetime) (oneTime : Bool)
    (mild : ∀ c ∈ message.toList, Json.Mild c) :
    (bytes (ofLifetime message lifetime oneTime).encode).length ≤
      2 * message.utf8ByteSize + 100 := by
  have named : (ofLifetime message lifetime oneTime).lifetime? = some lifetime :=
    Lifetime.ofSeconds?_seconds lifetime
  have bound := length_encode_le named
  have unspelled : message.toList.countP Json.isSpelled = 0 := by
    rw [List.countP_eq_zero]
    intro c member
    rw [Json.not_isSpelled_of_mild (mild c member)]
    exact Bool.false_ne_true
  have same : (ofLifetime message lifetime oneTime).message = message := rfl
  rw [same, unspelled, size, same] at bound
  omega

end Secret

end Records

end DeadDrop
