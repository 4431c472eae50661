import DeadDrop.Courier.Error
import DeadDrop.Exchange.Record
import DeadDrop.Http.Message
import DeadDrop.Secret.Id
import DeadDrop.Url.Extend

/-!
The other end of the wire. A courier knows the root of a server and runs errands: it turns each
into one request below that root and reads the answer. Who carries the requests is left open; a
carrier has a state, answers or fails.
-/

namespace DeadDrop

inductive Courier.Family where
  | message
  | file
  deriving DecidableEq

structure Courier where
  root : Url
  deriving DecidableEq

namespace Courier

def Family.segment : Family → List Char
  | message => "secret".toList
  | file => "file".toList

/-- The root as given, with a slash at the end of its path. -/
def new [Url.Names] (address : String) : Except Error Courier :=
  match Url.parse address with
  | .ok url => .ok ⟨url.closePath⟩
  | .error fault => .error (.address fault)

structure Errand where
  method : Http.Method
  url : Url
  body : Option Bytes
  deriving DecidableEq

structure Reception where
  status : Nat
  body : Bytes
  deriving DecidableEq

abbrev Carrier (State : Type) := Errand → State → Except String Reception × State

variable {State α : Type}

section Errands

def isSuccess (reception : Reception) : Bool := 200 ≤ reception.status && reception.status < 300

/-- Servers put their reason into a notice; any other body is the reason itself. -/
def reason (body : Bytes) : String :=
  let text := Text.Utf8.textLossy body
  match Exchange.Notice.decode (Text.Utf8.bytes text) with
  | .ok notice => notice.message
  | .error _ => text

def accept (reception : Reception) : Except Error Bytes :=
  if isSuccess reception then .ok reception.body
  else .error (.server reception.status (reason reception.body))

def address (courier : Courier) (reference : List Char) : Except Error Url :=
  (courier.root.join reference).mapError .address

def secretReference (family : Family) (id : SecretId) (suffix : List Char) : List Char :=
  family.segment ++ '/' :: (id.write ++ suffix)

def run (courier : Courier) (carrier : Carrier State) (method : Http.Method)
    (reference : List Char) (body : Option Bytes) (state : State) :
    Except Error Bytes × State :=
  match courier.address reference with
  | .error error => (.error error, state)
  | .ok url =>
      match carrier ⟨method, url, body⟩ state with
      | (.error reason, state) => (.error (.unreachable reason), state)
      | (.ok reception, state) => (accept reception, state)

def readRecord (decode : Bytes → Except Exchange.Error α) (body : Bytes) : Except Error α :=
  (decode body).mapError fun error => .garbled error.message

def ask (courier : Courier) (carrier : Carrier State) (method : Http.Method)
    (reference : List Char) (body : Option Bytes) (decode : Bytes → Except Exchange.Error α)
    (state : State) : Except Error α × State :=
  let (answer, state) := courier.run carrier method reference body state
  (answer.bind (readRecord decode), state)

end Errands

section Calls

def store (courier : Courier) (carrier : Carrier State) (family : Family) (secret : Secret)
    (state : State) : Except Error SecretId × State :=
  let body := Text.Utf8.bytes secret.encode
  let (answer, state) :=
    courier.ask carrier .post family.segment (some body) Exchange.Notice.decode state
  (answer.bind fun notice => (Exchange.parseId notice.message).mapError .exchange, state)

/-- Reads a secret, which takes it away if it is a one-time secret. -/
def fetch (courier : Courier) (carrier : Carrier State) (family : Family) (id : SecretId)
    (state : State) : Except Error Secret × State :=
  courier.ask carrier .get (secretReference family id []) none Secret.decode state

def status (courier : Courier) (carrier : Carrier State) (id : SecretId) (state : State) :
    Except Error Bool × State :=
  let reference := secretReference .message id "/status".toList
  let (answer, state) := courier.ask carrier .get reference none Exchange.Status.decode state
  (answer.map Exchange.Status.oneTime, state)

def delete (courier : Courier) (carrier : Carrier State) (id : SecretId) (state : State) :
    Except Error Unit × State :=
  let (answer, state) := courier.run carrier .delete (secretReference .message id []) none state
  (answer.map fun _ => (), state)

def settings (courier : Courier) (carrier : Carrier State) (state : State) :
    Except Error Exchange.Advertised × State :=
  courier.ask carrier .get "config".toList none Exchange.Advertised.decode state

end Calls

end Courier

end DeadDrop
