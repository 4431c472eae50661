import DeadDrop.Exchange.Error
import DeadDrop.Json.Writer
import DeadDrop.Secret.Basic
import DeadDrop.Secret.Id

/-!
The records that travel: secrets, and the answers of a server. A secret leaves out an expiration
of zero and a false mark, and is read back with them. Each record has a schema for reading and a
list of members for writing.
-/

namespace DeadDrop

namespace Exchange

def decodeRecord {α : Type} (schema : Json.Schema) (build : List Json.Value → Option α)
    (bytes : Bytes) : Except Error α :=
  match schema.decode bytes with
  | .error fault => .error (.record (fault.message bytes))
  | .ok values =>
      match build values with
      | some record => .ok record
      | none => .error (.record "")

def parseId (text : String) : Except Error SecretId :=
  match SecretId.ofText? text with
  | some id => .ok id
  | none => .error (.secretId text)

def decodeId (bytes : Bytes) : Except Error SecretId :=
  match Json.readString bytes with
  | .error fault => .error (.record (fault.message bytes))
  | .ok (text, rest) =>
      match SecretId.ofText? text with
      | none => .error (.record (Error.secretId text).message)
      | some id =>
          match Json.readEnd (id, rest) with
          | .ok id => .ok id
          | .error fault => .error (.record (fault.message bytes))

def encodeId (id : SecretId) : String := String.ofList (Json.writeText id.text)

end Exchange

namespace Secret

def schema : Json.Schema := ⟨"Secret", [
  ⟨"expiration", .int32, some (.int32 0)⟩,
  ⟨"message", .text, none⟩,
  ⟨"one_time", .flag, some (.flag false)⟩]⟩

def ofValues : List Json.Value → Option Secret
  | [.int32 expiration, .text message, .flag oneTime] => some ⟨expiration, message, oneTime⟩
  | _ => none

def members (secret : Secret) : List (String × Json.Value) :=
  (if secret.expiration = 0 then [] else [("expiration", .int32 secret.expiration)])
    ++ ("message", .text secret.message)
    :: (if secret.oneTime then [("one_time", .flag true)] else [])

def encode (secret : Secret) : String := String.ofList (Json.writeRecord secret.members)

def decode (bytes : Bytes) : Except Exchange.Error Secret :=
  Exchange.decodeRecord schema ofValues bytes

/-- The record that a text begins with, whatever follows it. -/
def decodeFront? (bytes : Bytes) : Option Secret :=
  match Json.readRecord schema bytes with
  | .ok (values, _) => ofValues values
  | .error _ => none

end Secret

namespace Exchange

structure Notice where
  message : String
  deriving DecidableEq

def Notice.schema : Json.Schema := ⟨"MessageResponse", [⟨"message", .text, none⟩]⟩

def Notice.ofValues : List Json.Value → Option Notice
  | [.text message] => some ⟨message⟩
  | _ => none

def Notice.encode (notice : Notice) : String :=
  String.ofList (Json.writeRecord [("message", .text notice.message)])

def Notice.decode (bytes : Bytes) : Except Error Notice :=
  decodeRecord schema ofValues bytes

/-- Whether reading a waiting secret takes it away. -/
structure Status where
  oneTime : Bool
  deriving DecidableEq

def Status.schema : Json.Schema := ⟨"StatusResponse", [⟨"oneTime", .flag, none⟩]⟩

def Status.ofValues : List Json.Value → Option Status
  | [.flag oneTime] => some ⟨oneTime⟩
  | _ => none

def Status.encode (status : Status) : String :=
  String.ofList (Json.writeRecord [("oneTime", .flag status.oneTime)])

def Status.decode (bytes : Bytes) : Except Error Status :=
  decodeRecord schema ofValues bytes

structure Advertised where
  uploadDisabled : Bool
  forceOneTime : Bool
  forceExpiration : Option Int32
  deriving DecidableEq

namespace Advertised

def schema : Json.Schema := ⟨"ConfigResponse", [
  ⟨"DISABLE_UPLOAD", .flag, none⟩,
  ⟨"FORCE_ONETIME_SECRETS", .flag, none⟩,
  ⟨"FORCE_EXPIRATION", .optionalInt32, some .absent⟩]⟩

def ofValues : List Json.Value → Option Advertised
  | [.flag uploadDisabled, .flag forceOneTime, .int32 expiration] =>
      some ⟨uploadDisabled, forceOneTime, some expiration⟩
  | [.flag uploadDisabled, .flag forceOneTime, .absent] =>
      some ⟨uploadDisabled, forceOneTime, none⟩
  | _ => none

def members (advertised : Advertised) : List (String × Json.Value) :=
  [("DISABLE_UPLOAD", .flag advertised.uploadDisabled),
    ("FORCE_ONETIME_SECRETS", .flag advertised.forceOneTime)]
    ++ advertised.forceExpiration.toList.map fun seconds => ("FORCE_EXPIRATION", .int32 seconds)

def encode (advertised : Advertised) : String :=
  String.ofList (Json.writeRecord advertised.members)

def decode (bytes : Bytes) : Except Error Advertised := decodeRecord schema ofValues bytes

end Advertised

end Exchange

end DeadDrop
