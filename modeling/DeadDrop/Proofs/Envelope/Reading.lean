import DeadDrop.Proofs.Envelope.Sealing

/-!
Sealing what is read. A source is asked for one read after another. It may answer each with as many
octets as it likes, with none at its end, or with a failure, and it need not come to either. A read
that was only interrupted is no failure: it is made again. What is sealed depends on the octets and
not on the reads, a failure is the answer whenever it comes, and without a key nothing is asked.
-/

namespace DeadDrop.Envelope

section Asking

inductive Fault.Kind where
  | interrupted
  | lasting
  deriving DecidableEq

/-- Why a read gave nothing. -/
structure Fault where
  kind : Fault.Kind
  detail : String
  deriving DecidableEq

/-- A source that is somewhere else after each read. A read of no octets is its end. -/
structure Supply where
  State : Type
  read : State → Except Fault Bytes × State

namespace Supply

variable {Out : Type} (supply : Supply)

/-- What a source gives from one state on, and where that leaves it. -/
inductive Delivers : supply.State → Source → supply.State → Prop where
  | ended {before after : supply.State} : supply.read before = (.ok [], after) →
      Delivers before ⟨[], none⟩ after
  | failed {before after : supply.State} {detail : String} :
      supply.read before = (.error ⟨.lasting, detail⟩, after) →
      Delivers before ⟨[], some detail⟩ after
  | again {before middle after : supply.State} {detail : String} {source : Source} :
      supply.read before = (.error ⟨.interrupted, detail⟩, middle) →
      Delivers middle source after → Delivers before source after
  | more {before middle after : supply.State} {octet : UInt8} {chunk : Bytes}
      {reads : List Bytes} {failure : Option String} :
      supply.read before = (.ok (octet :: chunk), middle) →
      Delivers middle ⟨reads, failure⟩ after →
      Delivers before ⟨(octet :: chunk) :: reads, failure⟩ after

/-- Reads into a machine. There is `none` if the source neither ends nor fails within so many
reads. -/
def copy (machine : Transducer UInt8 Out) : Nat → machine.State → List (List Out) →
    supply.State → Option (Except String (List Out) × supply.State)
  | 0, _, _, _ => none
  | limit + 1, state, pieces, before =>
      match supply.read before with
      | (.error ⟨.interrupted, _⟩, after) => copy machine limit state pieces after
      | (.error ⟨.lasting, detail⟩, after) => some (.error detail, after)
      | (.ok [], after) => some (.ok (machine.close state :: pieces).reverse.flatten, after)
      | (.ok (octet :: chunk), after) =>
          let (next, out) := machine.feed state (octet :: chunk)
          copy machine limit next (out :: pieces) after

variable {supply}

theorem exists_least {holds : Nat → Prop} (least : Nat)
    (next : ∀ limit, least ≤ limit → holds (limit + 1)) :
    ∃ least, ∀ limit, least ≤ limit → holds limit := by
  refine ⟨least + 1, fun limit enough => ?_⟩
  obtain ⟨limit, rfl⟩ := Nat.exists_eq_succ_of_ne_zero (Nat.ne_zero_of_lt enough)
  exact next limit (Nat.le_of_succ_le_succ enough)

/-- Copying comes to what the machine makes of the reads, or to the failure behind them. -/
theorem copy_of_delivers (machine : Transducer UInt8 Out) {before after : supply.State}
    {source : Source} (delivers : supply.Delivers before source after) :
    ∃ least, ∀ limit, least ≤ limit → ∀ state pieces,
      supply.copy machine limit state pieces before = some
        (match source.failure with
          | some detail => .error detail
          | none => .ok (pieces.reverse ++ machine.pieces state source.reads).flatten, after) := by
  induction delivers with
  | ended read =>
      refine exists_least 0 fun limit _ state pieces => ?_
      simp only [copy, read, List.reverse_cons, Transducer.pieces]
  | failed read =>
      refine exists_least 0 fun limit _ state pieces => ?_
      simp only [copy, read]
  | again read _ ih =>
      obtain ⟨least, copied⟩ := ih
      refine exists_least least fun limit enough state pieces => ?_
      rw [copy, read]
      exact copied limit enough state pieces
  | more read _ ih =>
      obtain ⟨least, copied⟩ := ih
      refine exists_least least fun limit enough state pieces => ?_
      rw [copy, read]
      dsimp only
      rw [copied limit enough]
      simp only [Transducer.pieces, List.reverse_cons, List.append_assoc, List.singleton_append]

/-- A source whose reads are known beforehand. It ends where they do. -/
def listed : Supply where
  State := List (Except Fault Bytes)
  read
    | [] => (.ok [], [])
    | result :: results => (result, results)

end Supply

end Asking

section Sealing

variable (randomness : Randomness) (hints : Option Hints)

def prepare (key : String) : Except Error (Packet × Cipher.Key sealCipher) := do
  if key.isEmpty then .error .emptyKey
  let session ← sessionKeyPacket (Text.Utf8.bytes key) randomness
  let dataKey ← keyFor sealCipher randomness.sessionKey.val
  return (session, dataKey)

/-- Nothing is asked of the source before all is prepared, and what was sealed so far is not handed
out when it fails. -/
def sealFrom (key : String) (supply : Supply) (limit : Nat) (before : supply.State) :
    Option (Except Error String × supply.State) :=
  match prepare randomness key with
  | .error error => some (.error error, before)
  | .ok (session, dataKey) =>
      let machine := machine hints randomness session dataKey
      (supply.copy machine limit machine.start [machine.opening] before).map
        fun (copied, after) => ((copied.map String.ofList).mapError Error.io, after)

def SealsFrom (key : String) (supply : Supply) (before : supply.State)
    (answer : Except Error String) (after : supply.State) : Prop :=
  ∃ limit, ∀ more, limit ≤ more →
    sealFrom randomness hints key supply more before = some (answer, after)

theorem sealFrom_keyless (supply : Supply) (limit : Nat) (before : supply.State) :
    sealFrom randomness hints "" supply limit before = some (.error .emptyKey, before) := rfl

theorem prepare_eq_ok {key : String} (filled : key ≠ "") :
    ∃ session dataKey, prepare randomness key = .ok (session, dataKey) := by
  obtain ⟨session, packed, -, -, -⟩ := unlock_sessionKeyPacket (Text.Utf8.bytes key) randomness
  obtain ⟨dataKey, derived⟩ := keyFor_ofLength sealCipher randomness.sessionKey.property
  have given : ¬ key.isEmpty := by
    simpa using filled
  refine ⟨session, dataKey, ?_⟩
  rw [prepare, if_neg given, packed, derived]
  rfl

variable {randomness hints} {key : String}

theorem encryptWith_eq_prepare (source : Source) :
    encryptWith randomness hints key source = (do
      let (session, dataKey) ← prepare randomness key
      match source.failure with
      | some detail => .error (.io detail)
      | none =>
          return String.ofList ((machine hints randomness session dataKey).run source.reads)) := by
  unfold encryptWith prepare
  cases key.isEmpty with
  | true => rfl
  | false =>
      cases sessionKeyPacket (Text.Utf8.bytes key) randomness with
      | error error => rfl
      | ok session => cases keyFor sealCipher randomness.sessionKey.val <;> rfl

/-- Reading piece by piece comes to what sealing comes to when all reads are there. -/
theorem sealsFrom_of_delivers (filled : key ≠ "") {supply : Supply}
    {before after : supply.State} {source : Source}
    (delivers : supply.Delivers before source after) :
    SealsFrom randomness hints key supply before (encryptWith randomness hints key source)
      after := by
  obtain ⟨session, dataKey, ready⟩ := prepare_eq_ok randomness filled
  obtain ⟨least, copied⟩ :=
    Supply.copy_of_delivers (machine hints randomness session dataKey) delivers
  refine ⟨least, ?_⟩
  intro more enough
  rw [sealFrom, encryptWith_eq_prepare, ready]
  dsimp only
  rw [copied more enough]
  obtain ⟨reads, failure⟩ := source
  cases failure with
  | some detail => rfl
  | none =>
      simp [Except.map, Except.mapError, Transducer.run_eq_pieces, bind, Except.bind, pure,
        Except.pure]

end Sealing

section Dependence

/-- Sealing answers so to a source, be all its reads there or be they asked for one by one. -/
def Answers (randomness : Randomness) (hints : Option Hints) (key : String) (source : Source)
    (answer : Except Error String) : Prop :=
  encryptWith randomness hints key source = answer ∧
    ∀ (supply : Supply) (before after : supply.State), supply.Delivers before source after →
      SealsFrom randomness hints key supply before answer after

theorem answers_encryptWith (randomness : Randomness) (hints : Option Hints) {key : String}
    (filled : key ≠ "") (source : Source) :
    Answers randomness hints key source (encryptWith randomness hints key source) :=
  ⟨rfl, fun _ _ _ delivers => sealsFrom_of_delivers filled delivers⟩

/-- A key that is not empty makes one text of a content, whatever reads it comes in and however
often these are interrupted, and a source that fails after any of them is answered with its failure
alone. An empty key is refused and the source stays where it was. -/
theorem sealed_alike_however_read (randomness : Randomness) (hints : Option Hints) :
    (∀ key, key ≠ "" → ∃ session dataKey, prepare randomness key = .ok (session, dataKey) ∧
      (∀ reads : List Bytes, Answers randomness hints key ⟨reads, none⟩
        (.ok (armoredText (binary hints randomness.filler session dataKey reads.flatten)))) ∧
      ∀ (reads : List Bytes) (detail : String),
        Answers randomness hints key ⟨reads, some detail⟩ (.error (.io detail))) ∧
    (∀ source, encryptWith randomness hints "" source = .error .emptyKey) ∧
    ∀ (supply : Supply) (limit : Nat) (before : supply.State),
      sealFrom randomness hints "" supply limit before = some (.error .emptyKey, before) := by
  refine ⟨?_, fun _ => rfl, sealFrom_keyless randomness hints⟩
  intro key filled
  obtain ⟨session, dataKey, ready⟩ := prepare_eq_ok randomness filled
  refine ⟨session, dataKey, ready, ?_, ?_⟩
  · intro reads
    have sealed : encryptWith randomness hints key ⟨reads, none⟩ =
        .ok (armoredText (binary hints randomness.filler session dataKey reads.flatten)) := by
      rw [encryptWith_eq_prepare, ready]
      exact congrArg (fun text => Except.ok (String.ofList text))
        (machine_computes hints session dataKey randomness reads)
    exact sealed ▸ answers_encryptWith randomness hints filled _
  · intro reads detail
    have failed : encryptWith randomness hints key ⟨reads, some detail⟩ =
        .error (.io detail) := by
      rw [encryptWith_eq_prepare, ready]
      rfl
    exact failed ▸ answers_encryptWith randomness hints filled _

-- An interruption between two reads makes no difference, and a failure behind them is the answer.
theorem note_sealed_alike_however_read :
    let random : Randomness := ⟨Sized.filled 8 1, Sized.filled 32 2, Sized.filled 16 3⟩
    "key" ≠ "" ∧ ∃ text,
      SealsFrom random none "key" .listed [.ok [104, 105]] (.ok text) [] ∧
      SealsFrom random none "key" .listed
        [.ok [104], .error ⟨.interrupted, "signal"⟩, .ok [105]] (.ok text) [] ∧
      SealsFrom random none "key" .listed
        [.ok [104], .error ⟨.lasting, "gone"⟩, .ok [105]] (.error (.io "gone")) [.ok [105]] := by
  intro random
  have filled : "key" ≠ "" := by decide
  obtain ⟨session, dataKey, -, sealed, failed⟩ :=
    (sealed_alike_however_read random none).1 "key" filled
  exact ⟨filled, _,
    (sealed [[104, 105]]).2 .listed _ _ (.more rfl (.ended rfl)),
    (sealed [[104], [105]]).2 .listed _ _ (.more rfl (.again rfl (.more rfl (.ended rfl)))),
    (failed [[104]] "gone").2 .listed _ _ (.more rfl (.failed rfl))⟩

end Dependence

end DeadDrop.Envelope
