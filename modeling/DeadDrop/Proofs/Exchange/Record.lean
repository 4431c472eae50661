import DeadDrop.Exchange.Record
import DeadDrop.Proofs.Json.Record

/-!
What is written of a secret, of a notice or of what a server advertises is read as the same. A
secret leaves out an expiration of zero and a false mark, a server the limit that it does not have;
these are the fallbacks of their schemas.
-/

namespace DeadDrop

open Json (Value Field Describes Belongs)
open Text.Utf8 (encode bytes)

theorem bytes_ofList (chars : List Char) : bytes (String.ofList chars) = encode chars := by
  rw [bytes, String.toList_ofList]

theorem Json.getElem?_writeRecord {name : String} {place : Nat} {c : Char}
    (named : (writeText name)[place]? = some c) (value : Value)
    (others : List (String × Value)) :
    (writeRecord ((name, value) :: others))[place + 1]? = some c := by
  obtain ⟨within, -⟩ := List.getElem?_eq_some_iff.mp named
  have written : ∃ rest, writeRecord ((name, value) :: others) =
      '\x7b' :: (writeText name ++ rest) := by
    cases others <;> simp [writeRecord, writeMembers, writeMember]
  obtain ⟨rest, written⟩ := written
  rw [written, List.getElem?_cons_succ, List.getElem?_append_left within, named]

/-- A record of its schema is decoded as what it was built from. -/
theorem Exchange.decodeRecord_write {α : Type} {schema : Json.Schema}
    {build : List Value → Option α} {members : List (String × Value)} {values : List Value}
    {record : α} (describes : Describes schema members values)
    (built : build values = some record) :
    decodeRecord schema build (bytes (String.ofList (Json.writeRecord members))) = .ok record := by
  rw [bytes_ofList, decodeRecord, Json.decode_writeRecord describes]
  simp only [built]

namespace Secret

theorem describes_parts (secret : Secret) {front back : List (String × Value)}
    (expiration : front = [("expiration", .int32 secret.expiration)] ∨
      front = [] ∧ secret.expiration = 0)
    (mark : back = [("one_time", .flag secret.oneTime)] ∨ back = [] ∧ secret.oneTime = false) :
    Describes schema (front ++ ("message", .text secret.message) :: back)
      [.int32 secret.expiration, .text secret.message, .flag secret.oneTime] := by
  have seconds : Belongs schema.fields ("expiration", .int32 secret.expiration) :=
    ⟨_, List.mem_cons_self, rfl, .int32 secret.expiration⟩
  have text : Belongs schema.fields ("message", .text secret.message) :=
    ⟨_, List.mem_cons_of_mem _ List.mem_cons_self, rfl, .text secret.message⟩
  have flag : Belongs schema.fields ("one_time", .flag secret.oneTime) :=
    ⟨_, List.mem_cons_of_mem _ (List.mem_cons_of_mem _ List.mem_cons_self), rfl,
      .flag secret.oneTime⟩
  -- Four forms: each of the two members is there or falls back.
  rcases expiration with rfl | ⟨rfl, zero⟩ <;> rcases mark with rfl | ⟨rfl, unset⟩
  all_goals
    refine ⟨by decide, ?_, ?_, ?_⟩
    · simp [seconds, text, flag]
    · simp
    · simp [*, Json.Known.Settles, Json.Known.learn, schema]

theorem describes (secret : Secret) : Describes schema secret.members
    [.int32 secret.expiration, .text secret.message, .flag secret.oneTime] := by
  apply describes_parts
  · by_cases zero : secret.expiration = 0
    · exact .inr ⟨if_pos zero, zero⟩
    · exact .inl (if_neg zero)
  · cases mark : secret.oneTime with
    | true => exact .inl rfl
    | false => exact .inr ⟨rfl, rfl⟩

def spelled (secret : Secret) : List (String × Value) :=
  [("expiration", .int32 secret.expiration), ("message", .text secret.message),
    ("one_time", .flag secret.oneTime)]

/-- Nothing is lost by what is left out. -/
theorem decode_spelled (secret : Secret) :
    decode (bytes (String.ofList (Json.writeRecord secret.spelled))) = .ok secret :=
  Exchange.decodeRecord_write (secret.describes_parts (.inl rfl) (.inl rfl)) rfl

/-- The text of a record. An expiration of zero and a false mark are not in it. -/
def layout (secret : Secret) : List Char :=
  '\x7b' :: ((if secret.expiration = 0 then []
      else "\"expiration\":".toList ++ Json.writeInt secret.expiration.toInt ++ [','])
    ++ ("\"message\":".toList ++ Json.writeText secret.message)
    ++ (if secret.oneTime then ",\"one_time\":true".toList else [])) ++ ['\x7d']

theorem toList_encode (secret : Secret) : secret.encode.toList = secret.layout := by
  have names : Json.writeText "expiration" = "\"expiration\"".toList ∧
      Json.writeText "message" = "\"message\"".toList ∧
      Json.writeText "one_time" = "\"one_time\"".toList := by
    decide
  rw [encode, String.toList_ofList, layout, members]
  by_cases zero : secret.expiration = 0 <;> cases mark : secret.oneTime <;>
    simp [zero, Json.writeRecord, Json.writeMembers, Json.writeMember, Json.Value.write,
      Json.writeFlag, names]

theorem decode_encode (secret : Secret) : decode (bytes secret.encode) = .ok secret :=
  Exchange.decodeRecord_write secret.describes rfl

theorem decodeFront?_encode (secret : Secret) :
    decodeFront? (bytes secret.encode) = some secret := by
  have read := Json.readRecord_writeRecord secret.describes []
  rw [List.append_nil] at read
  rw [decodeFront?, Secret.encode, bytes_ofList, read]
  rfl

theorem encode_injective : Function.Injective Secret.encode := by
  intro secret other same
  have read := other.decode_encode
  rw [← same, secret.decode_encode] at read
  exact Except.ok.inj read

theorem getElem?_encode (secret : Secret) :
    secret.encode.toList[2]? = some 'e' ∨ secret.encode.toList[2]? = some 'm' := by
  rw [Secret.encode, String.toList_ofList, members]
  by_cases zero : secret.expiration = 0
  · rw [if_pos zero]
    exact .inr (Json.getElem?_writeRecord (by decide) _ _)
  · rw [if_neg zero]
    exact .inl (Json.getElem?_writeRecord (by decide) _ _)

theorem ne_encode {text : String} {first : Option Char} (found : text.toList[2]? = first)
    (expiration : first ≠ some 'e') (message : first ≠ some 'm') (secret : Secret) :
    text ≠ secret.encode := by
  rintro rfl
  rcases secret.getElem?_encode with begins | begins
  · exact expiration (found.symm.trans begins)
  · exact message (found.symm.trans begins)

end Secret

namespace Exchange.Notice

theorem describes (notice : Notice) :
    Describes schema [("message", .text notice.message)] [.text notice.message] := by
  refine ⟨by decide, ?_, by simp, ?_⟩
  · intro member among
    rw [List.mem_singleton.mp among]
    exact ⟨_, List.mem_cons_self, rfl, .text notice.message⟩
  · simp [Json.Known.Settles, Json.Known.learn, schema]

theorem decode_encode (notice : Notice) : decode (bytes notice.encode) = .ok notice :=
  decodeRecord_write notice.describes rfl

end Exchange.Notice

namespace Exchange.Advertised

theorem describes (advertised : Advertised) : Describes schema advertised.members
    [.flag advertised.uploadDisabled, .flag advertised.forceOneTime,
      (advertised.forceExpiration.map Value.int32).getD .absent] := by
  obtain ⟨uploadDisabled, forceOneTime, forceExpiration⟩ := advertised
  have uploads : Belongs schema.fields ("DISABLE_UPLOAD", .flag uploadDisabled) :=
    ⟨_, List.mem_cons_self, rfl, .flag uploadDisabled⟩
  have once : Belongs schema.fields ("FORCE_ONETIME_SECRETS", .flag forceOneTime) :=
    ⟨_, List.mem_cons_of_mem _ List.mem_cons_self, rfl, .flag forceOneTime⟩
  have limit (seconds : Int32) : Belongs schema.fields ("FORCE_EXPIRATION", .int32 seconds) :=
    ⟨_, List.mem_cons_of_mem _ (List.mem_cons_of_mem _ List.mem_cons_self), rfl, .optional seconds⟩
  cases forceExpiration
  all_goals
    refine ⟨by decide, ?_, ?_, ?_⟩
    · simp [members, uploads, once, limit]
    · simp [members]
    · simp [members, Json.Known.Settles, Json.Known.learn, schema]

theorem decode_encode (advertised : Advertised) :
    decode (bytes advertised.encode) = .ok advertised := by
  apply decodeRecord_write advertised.describes
  obtain ⟨uploadDisabled, forceOneTime, forceExpiration⟩ := advertised
  cases forceExpiration <;> rfl

end Exchange.Advertised

end DeadDrop
