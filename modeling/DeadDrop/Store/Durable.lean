import DeadDrop.Exchange.Record
import DeadDrop.Store.Basic
import DeadDrop.Store.Shelf

/-!
The store that survives a restart. A stored value is a deadline in seconds of the calendar, eight
octets, followed by the secret's record. Operations leave the table as it was when they fail.
-/

namespace DeadDrop.Store

abbrev Durable := Shelf Bytes

def Error.ofExchange (error : Exchange.Error) : Error := .record error.message

namespace Durable

def empty : Durable := []

def deadlineSize : Nat := 8

def encodeValue (deadline : Nat) (secret : Secret) : Bytes :=
  Bytes.ofNat deadlineSize deadline ++ Text.Utf8.bytes secret.encode

def decodeDeadline (value : Bytes) : Except Error Nat :=
  if deadlineSize ≤ value.length then .ok (Bytes.toNat (value.take deadlineSize))
  else .error (.record "stored value shorter than deadline")

def decodeSecret (value : Bytes) : Except Error Secret :=
  (Secret.decode (value.drop deadlineSize)).mapError Error.ofExchange

def decodeValue (value : Bytes) : Except Error (Nat × Secret) := do
  let deadline ← decodeDeadline value
  let secret ← decodeSecret value
  return (deadline, secret)

def wall (clock : Clock) : Except Error Nat :=
  match clock.wall? with
  | some now => .ok now
  | none => .error .calendarEnd

/-- The record is read before the deadline is looked at. -/
def load (clock : Clock) (id : SecretId) (table : Durable) : Except Error Secret := do
  let value ← found (table.find? id)
  let (deadline, secret) ← decodeValue value
  let now ← wall clock
  if deadline ≤ now then .error .notFound else return secret

def get (clock : Clock) (id : SecretId) (table : Durable) : Answer Durable Secret :=
  (load clock id table, table)

def status (clock : Clock) (id : SecretId) (table : Durable) : Answer Durable Bool :=
  ((load clock id table).map Secret.oneTime, table)

def lastDeadline : Nat := Clock.wordLimit - 1

def deadlineFor (clock : Clock) (secret : Secret) : Except Error Nat := do
  let now ← wall clock
  let seconds ← span secret
  return min (now + seconds) lastDeadline

def put (clock : Clock) (id : SecretId) (secret : Secret) (table : Durable) :
    Answer Durable Unit :=
  match deadlineFor clock secret with
  | .error error => (.error error, table)
  | .ok deadline => (.ok (), Shelf.put table id (encodeValue deadline secret))

def isLive (clock : Clock) (value : Bytes) : Except Error Bool := do
  let deadline ← decodeDeadline value
  let now ← wall clock
  return now < deadline

def delete (clock : Clock) (id : SecretId) (table : Durable) : Answer Durable Bool :=
  match table.find? id with
  | none => (.ok false, table)
  | some value =>
      match isLive clock value with
      | .error error => (.error error, table)
      | .ok live => (.ok live, table.erase id)

/-- One value without a deadline spoils the whole purge. -/
def purge (clock : Clock) (table : Durable) : Answer Durable Nat :=
  match wall clock with
  | .error error => (.error error, table)
  | .ok now =>
      match table.mapM fun slot => decodeDeadline slot.2 with
      | .error error => (.error error, table)
      | .ok _ =>
          let left := table.keep fun value =>
            match decodeDeadline value with
            | .ok deadline => now < deadline
            | .error _ => true
          (.ok (table.length - left.length), left)

end Durable

def durable : Store Durable :=
  ⟨Durable.get, Durable.put, Durable.delete, Durable.status, Durable.purge⟩

end DeadDrop.Store
