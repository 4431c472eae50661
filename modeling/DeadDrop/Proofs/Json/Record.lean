import DeadDrop.Json.Record
import DeadDrop.Proofs.Json.Number
import Mathlib.Data.List.DropRight

/-!
A record is read as it was written. The writer may leave a member out when the schema falls back to
its value; the reader fills one slot for each member and takes the fallback for the others, so it
ends with what each field was meant to hold.
-/

namespace DeadDrop.Json

open Text.Utf8 (encode encode_append)

section Values

/-- The values of a kind. -/
inductive Kind.Holds : Kind → Value → Prop where
  | text (value : String) : Holds .text (.text value)
  | int32 (value : Int32) : Holds .int32 (.int32 value)
  | flag (value : Bool) : Holds .flag (.flag value)
  | optional (value : Int32) : Holds .optionalInt32 (.int32 value)

variable {rest : Bytes}

theorem readString_writeText (text : String) (rest : Bytes) :
    readString (encode (writeText text) ++ rest) = .ok (text, rest) := by
  obtain ⟨inside, shape, read⟩ := readText_writeText text rest
  have skipped : skipBlanks (quoteMark :: inside) = quoteMark :: inside := rfl
  rw [shape, readString, skipped]
  simp only [if_true, read]

theorem readFlag_writeFlag (value : Bool) (rest : Bytes) :
    readFlag (encode (writeFlag value) ++ rest) = .ok (value, rest) := by
  cases value with
  | true =>
      have shape : encode (writeFlag true) = 0x74 :: rue := by decide
      rw [shape]
      rfl
  | false =>
      have shape : encode (writeFlag false) = 0x66 :: alse := by decide
      rw [shape]
      rfl

theorem readOptionalInt32_of_readInt32 {bytes : Bytes} {value : Int32}
    (read : readInt32 bytes = .ok (value, rest)) :
    readOptionalInt32 bytes = .ok (.int32 value, rest) := by
  have again : skipBlanks (skipBlanks bytes) = skipBlanks bytes :=
    List.dropWhile_idempotent isBlank bytes
  unfold readOptionalInt32
  split
  · next others shape =>
      rw [readInt32, shape] at read
      cases read
  · have same : readInt32 (skipBlanks bytes) = .ok (value, rest) := by
      rw [readInt32, again, ← readInt32, read]
    rw [same]
    rfl

theorem Kind.read_write {kind : Kind} {value : Value} (holds : kind.Holds value)
    (ends : Number.Ends rest) : kind.read (encode value.write ++ rest) = .ok (value, rest) := by
  cases holds with
  | text value =>
      simp only [Kind.read, Value.write, readString_writeText]
      rfl
  | int32 value =>
      simp only [Kind.read, Value.write, readInt32_writeInt value ends]
      rfl
  | flag value =>
      simp only [Kind.read, Value.write, readFlag_writeFlag]
      rfl
  | optional value => exact readOptionalInt32_of_readInt32 (readInt32_writeInt value ends)

end Values

section Slots

abbrev Known := String → Option Value

def Known.learn (known : Known) (member : String × Value) : Known :=
  fun name => if name = member.1 then some member.2 else known name

def slotsOf (fields : List Field) (known : Known) : Slots :=
  fields.map fun field => (field, known field.name)

variable {fields : List Field} {known : Known}

theorem fill_slotsOf (distinct : (fields.map Field.name).Nodup) (name : String) (value : Value) :
    fill name value (slotsOf fields known) = slotsOf fields (known.learn (name, value)) := by
  induction fields with
  | nil => rfl
  | cons field others ih =>
      obtain ⟨absent, tail⟩ := List.nodup_cons.mp distinct
      rw [slotsOf, List.map_cons, fill]
      by_cases same : field.name = name
      · -- Behind the one slot that is filled, nothing bears the name.
        have untouched : ∀ other ∈ others, known.learn (name, value) other.name =
            known other.name := by
          intro other member
          have apart : other.name ≠ name := by
            intro equal
            exact absent (List.mem_map.mpr ⟨other, member, equal.trans same.symm⟩)
          rw [Known.learn, if_neg apart]
        rw [if_pos same, slotsOf, List.map_cons, Known.learn, if_pos same]
        congr 1
        apply List.map_congr_left
        intro other member
        rw [← untouched other member]
      · rw [if_neg same, slotsOf, List.map_cons, Known.learn, if_neg same]
        congr 1
        exact ih tail

theorem find?_slotsOf (known : Known) (distinct : (fields.map Field.name).Nodup) {field : Field}
    (member : field ∈ fields) :
    (slotsOf fields known).find? (fun slot => slot.1.name = field.name) =
      some (field, known field.name) := by
  induction fields with
  | nil => cases member
  | cons first others ih =>
      obtain ⟨absent, tail⟩ := List.nodup_cons.mp distinct
      rw [slotsOf, List.map_cons, List.find?_cons]
      rcases List.mem_cons.mp member with rfl | later
      · simp
      · have apart : first.name ≠ field.name := by
          intro equal
          exact absent (List.mem_map.mpr ⟨field, later, equal.symm⟩)
        simp only [apart, decide_false]
        exact ih tail later

/-- Each field has been read, or falls back. -/
def Known.Settles (known : Known) (fields : List Field) (values : List Value) : Prop :=
  fields.map (fun field => known field.name <|> field.fallback) = values.map some

theorem settle_slotsOf (rest : Bytes) {values : List Value}
    (settles : known.Settles fields values) :
    settle (slotsOf fields known) rest = .ok values := by
  induction fields generalizing values with
  | nil =>
      cases values with
      | nil => rfl
      | cons value others => cases settles
  | cons field others ih =>
      cases values with
      | nil => cases settles
      | cons value later =>
          obtain ⟨found, behind⟩ := List.cons.inj settles
          dsimp only at found
          have tail : settle (slotsOf others known) rest = .ok later := ih behind
          rw [slotsOf] at tail
          rw [slotsOf, List.map_cons, settle, found, tail]
          rfl

end Slots

section Members

def Belongs (fields : List Field) (member : String × Value) : Prop :=
  ∃ field ∈ fields, field.name = member.1 ∧ field.kind.Holds member.2

def writeOthers (members : List (String × Value)) : List Char :=
  members.flatMap fun member => ',' :: writeMember member

theorem writeMembers_cons (member : String × Value) (others : List (String × Value)) :
    writeMembers (member :: others) = writeMember member ++ writeOthers others := by
  induction others generalizing member with
  | nil => simp [writeMembers, writeOthers]
  | cons next others ih =>
      rw [writeMembers, ih next]
      · simp [writeOthers]
      · exact List.cons_ne_nil _ _

theorem encode_writeMember (member : String × Value) :
    encode (writeMember member) =
      encode (writeText member.1) ++ colon :: encode member.2.write := by
  rw [writeMember, encode_append, Text.Utf8.encode_cons]
  rfl

variable {fields : List Field} {known : Known} {member : String × Value} {rest : Bytes}

theorem readMember_write (distinct : (fields.map Field.name).Nodup)
    (belongs : Belongs fields member) (fresh : known member.1 = none)
    (ends : Number.Ends rest) :
    readMember (slotsOf fields known) member.1 (colon :: (encode member.2.write ++ rest)) =
      .ok (slotsOf fields (known.learn member), rest) := by
  obtain ⟨field, declared, name, holds⟩ := belongs
  have slot := find?_slotsOf known distinct declared
  have colonRead : readColon (colon :: (encode member.2.write ++ rest)) =
      .ok (encode member.2.write ++ rest) := rfl
  have value := Kind.read_write holds ends
  rw [name, fresh] at slot
  simp only [readMember, slot, colonRead, value, placed, bind, Except.bind, pure, Except.pure]
  rw [fill_slotsOf distinct]

theorem readMembers_next (first : Bool) {more : Nat} {slots later : Slots}
    {bytes inside behind after : Bytes} {name : String}
    (keyed : nextKey first bytes = .ok (some inside, behind))
    (read : readText inside = .ok (name, rest))
    (taken : readMember slots name rest = .ok (later, after)) :
    readMembers (more + 1) first slots bytes = readMembers more false later after := by
  simp only [readMembers, keyed, read, taken, placed, bind, Except.bind]

theorem readMembers_end (first : Bool) (more : Nat) (slots : Slots) (rest : Bytes) :
    readMembers (more + 1) first slots (closeMap :: rest) = .ok (slots, closeMap :: rest) := by
  have none : nextKey first (closeMap :: rest) = .ok (none, closeMap :: rest) := by
    cases first <;> rfl
  simp only [readMembers, none, placed, bind, Except.bind, pure, Except.pure]

theorem ends_writeOthers (members : List (String × Value)) (rest : Bytes) :
    Number.Ends (encode (writeOthers members) ++ closeMap :: rest) := by
  cases members with
  | nil => exact ⟨by decide, by decide, by decide, by decide⟩
  | cons member others => exact ⟨by decide, by decide, by decide, by decide⟩

-- A member is read no matter whether a comma stands before it, so the first is like the others.
theorem readMembers_one (first : Bool) {more : Nat} {bytes : Bytes}
    (distinct : (fields.map Field.name).Nodup) (belongs : Belongs fields member)
    (fresh : known member.1 = none) (ends : Number.Ends rest)
    (keyed : ∀ inside, quoteMark :: inside = encode (writeMember member) ++ rest →
      ∃ behind, nextKey first bytes = .ok (some inside, behind)) :
    readMembers (more + 1) first (slotsOf fields known) bytes =
      readMembers more false (slotsOf fields (known.learn member)) rest := by
  obtain ⟨inside, shape, read⟩ :=
    readText_writeText member.1 (colon :: (encode member.2.write ++ rest))
  have whole : quoteMark :: inside = encode (writeMember member) ++ rest := by
    rw [← shape, encode_writeMember]
    simp
  obtain ⟨behind, key⟩ := keyed inside whole
  exact readMembers_next first key read (readMember_write distinct belongs fresh ends)

theorem learn_unread {others : List (String × Value)} (alone : member.1 ∉ others.map Prod.fst)
    (unread : ∀ other ∈ others, known other.1 = none) :
    ∀ other ∈ others, known.learn member other.1 = none := by
  intro other among
  have differs : other.1 ≠ member.1 := by
    intro same
    exact alone (List.mem_map.mpr ⟨other, among, same⟩)
  rw [Known.learn, if_neg differs]
  exact unread other among

theorem readMembers_writeOthers {members : List (String × Value)} {more : Nat} (rest : Bytes)
    (distinct : (fields.map Field.name).Nodup)
    (belong : ∀ member ∈ members, Belongs fields member)
    (apart : (members.map Prod.fst).Nodup) (fresh : ∀ member ∈ members, known member.1 = none)
    (enough : members.length < more) :
    readMembers more false (slotsOf fields known)
        (encode (writeOthers members) ++ closeMap :: rest) =
      .ok (slotsOf fields (members.foldl Known.learn known), closeMap :: rest) := by
  induction members generalizing known more with
  | nil =>
      obtain ⟨more, rfl⟩ := Nat.exists_eq_succ_of_ne_zero (Nat.ne_zero_of_lt enough)
      exact readMembers_end false more _ rest
  | cons member others ih =>
      obtain ⟨more, rfl⟩ := Nat.exists_eq_succ_of_ne_zero (Nat.ne_zero_of_lt enough)
      obtain ⟨here, later⟩ := List.forall_mem_cons.mp belong
      obtain ⟨unknown, unread⟩ := List.forall_mem_cons.mp fresh
      obtain ⟨alone, tail⟩ := List.nodup_cons.mp apart
      have shape : encode (writeOthers (member :: others)) ++ closeMap :: rest =
          comma :: (encode (writeMember member) ++
            (encode (writeOthers others) ++ closeMap :: rest)) := by
        rw [writeOthers, List.flatMap_cons, List.cons_append, Text.Utf8.encode_cons,
          encode_append]
        simp [writeOthers]
        rfl
      have still := learn_unread alone unread
      rw [shape, readMembers_one false distinct here unknown (ends_writeOthers others rest)]
      · exact ih later tail still (Nat.lt_of_succ_lt_succ enough)
      · intro inside whole
        rw [← whole]
        exact ⟨_, rfl⟩

end Members

section Whole

/-- Members of a schema's record, each at most once, and the values that they and the fallbacks
give. -/
structure Describes (schema : Schema) (members : List (String × Value))
    (values : List Value) : Prop where
  distinct : (schema.fields.map Field.name).Nodup
  belong : ∀ member ∈ members, Belongs schema.fields member
  apart : (members.map Prod.fst).Nodup
  settles : Known.Settles (members.foldl Known.learn fun _ => none) schema.fields values

variable {schema : Schema} {members : List (String × Value)} {values : List Value}

theorem length_writeOthers (members : List (String × Value)) :
    members.length ≤ (encode (writeOthers members)).length := by
  induction members with
  | nil => exact Nat.le_refl 0
  | cons member others ih =>
      rw [writeOthers, List.flatMap_cons, List.cons_append, Text.Utf8.encode_cons, encode_append]
      rw [writeOthers] at ih
      have comma : (String.utf8EncodeChar ',').length = 1 := by decide
      simp only [List.length_append, List.length_cons, comma]
      omega

theorem readMembers_write (describes : Describes schema members values) {more : Nat}
    (rest : Bytes) (enough : members.length < more) :
    readMembers more true (slotsOf schema.fields fun _ => none)
        (encode (writeMembers members) ++ closeMap :: rest) =
      .ok (slotsOf schema.fields (members.foldl Known.learn fun _ => none),
        closeMap :: rest) := by
  cases members with
  | nil =>
      obtain ⟨more, rfl⟩ := Nat.exists_eq_succ_of_ne_zero (Nat.ne_zero_of_lt enough)
      exact readMembers_end true more _ rest
  | cons member others =>
      obtain ⟨more, rfl⟩ := Nat.exists_eq_succ_of_ne_zero (Nat.ne_zero_of_lt enough)
      obtain ⟨here, later⟩ := List.forall_mem_cons.mp describes.belong
      obtain ⟨alone, tail⟩ := List.nodup_cons.mp describes.apart
      have still : ∀ other ∈ others, Known.learn (fun _ => none) member other.1 = none :=
        learn_unread alone fun _ _ => rfl
      rw [writeMembers_cons, encode_append, List.append_assoc,
        readMembers_one true describes.distinct here rfl (ends_writeOthers others rest)]
      · exact readMembers_writeOthers rest describes.distinct later tail still
          (Nat.lt_of_succ_lt_succ enough)
      · intro inside whole
        rw [← whole]
        exact ⟨_, rfl⟩

theorem readRecord_writeRecord (describes : Describes schema members values) (rest : Bytes) :
    readRecord schema (encode (writeRecord members) ++ rest) = .ok (values, rest) := by
  have shape : encode (writeRecord members) ++ rest =
      openMap :: (encode (writeMembers members) ++ closeMap :: rest) := by
    rw [writeRecord, List.cons_append, Text.Utf8.encode_cons, encode_append]
    simp
    rfl
  have enough : members.length <
      (encode (writeMembers members) ++ closeMap :: rest).length + 1 := by
    cases members with
    | nil => exact Nat.succ_pos _
    | cons member others =>
        have bound := length_writeOthers others
        rw [writeMembers_cons, encode_append]
        simp only [List.length_cons, List.length_append]
        omega
  have read := readMembers_write describes rest enough
  have settled := settle_slotsOf (closeMap :: rest) describes.settles
  have skipped (bytes : Bytes) : skipBlanks (openMap :: bytes) = openMap :: bytes := rfl
  have closed : endMap (closeMap :: rest) = (none, rest) := rfl
  have notList : openMap ≠ openList := by decide
  have slots : schema.slots = slotsOf schema.fields fun _ => none := rfl
  rw [shape, readRecord, skipped, slots]
  simp only [if_neg notList, if_true, read, settled, closed, conclude, bind, Except.bind, pure,
    Except.pure]

theorem decode_writeRecord (describes : Describes schema members values) :
    schema.decode (encode (writeRecord members)) = .ok values := by
  have read := readRecord_writeRecord describes []
  rw [List.append_nil] at read
  rw [Schema.decode, read]
  rfl

end Whole

end DeadDrop.Json
