import DeadDrop.Address
import DeadDrop.Http.Api
import DeadDrop.Server.Error

/-!
What can be set about a server. Each setting has a name, under which it stands on the command
line, and a kind of value; a switch is only ever on or off. Whole numbers may carry a plus sign,
and a minus sign where the kind has negative numbers.
-/

namespace DeadDrop.Server

inductive Setting where
  | address
  | port
  | database
  | path
  | maxLength
  | forceOneTime
  | forceExpiration
  | disableUpload
  | allowOrigin
  | strictTransport
  | sweepInterval
  | logLevel
  deriving DecidableEq

namespace Setting

def all : List Setting :=
  [address, port, database, path, maxLength, forceOneTime, forceExpiration, disableUpload,
    allowOrigin, strictTransport, sweepInterval, logLevel]

def name : Setting → String
  | address => "address"
  | port => "port"
  | database => "database"
  | path => "db-path"
  | maxLength => "max-length"
  | forceOneTime => "force-onetime-secrets"
  | forceExpiration => "force-expiration"
  | disableUpload => "disable-upload"
  | allowOrigin => "cors-allow-origin"
  | strictTransport => "hsts"
  | sweepInterval => "sweep-interval"
  | logLevel => "log-level"

def ofName? (name : List Char) : Option Setting :=
  all.find? fun setting => setting.name.toList = name

def isSwitch : Setting → Bool
  | forceOneTime | disableUpload | strictTransport => true
  | _ => false

def variableName (setting : Setting) : String :=
  "VANISH_" ++ String.ofList (setting.name.toList.map fun c => if c = '-' then '_' else c.toUpper)

end Setting

inductive Database where
  | memory
  | durable
  deriving DecidableEq

def Database.all : List Database := [.memory, .durable]

def Database.name : Database → String
  | memory => "memory"
  | durable => "redb"

structure Settings where
  address : Address.Ip
  port : Nat
  database : Database
  path : String
  policy : Policy
  uploadDisabled : Bool
  allowOrigin : String
  strictTransport : Bool
  sweepInterval : Nat
  logLevel : String
  deriving DecidableEq

namespace Settings

def standard : Settings where
  address := .v4 0
  port := 1337
  database := .durable
  path := "vanish.redb"
  policy := .standard
  uploadDisabled := false
  allowOrigin := "*"
  strictTransport := false
  sweepInterval := 60
  logLevel := "info"

section Values

inductive Fault where
  | malformed
  | noChoice
  deriving DecidableEq

def digits? (digits : List Char) : Option Nat :=
  if digits = [] then none else Address.number? 10 digits

def natural? : List Char → Option Nat
  | '+' :: digits => digits? digits
  | digits => digits? digits

def integer? : List Char → Option Int
  | '-' :: digits => (digits? digits).map fun size => -(size : Int)
  | chars => (natural? chars).map Int.ofNat

def within {α : Type} (fault : Fault) : Option α → Except Fault α
  | some value => .ok value
  | none => .error fault

def readPort (chars : List Char) : Except Fault Nat :=
  within .malformed (((integer? chars).filter fun n => 0 ≤ n && n ≤ 65535).map Int.toNat)

def inInt32 (n : Int) : Bool := -0x80000000 ≤ n && n < 0x80000000

def readInt32 (chars : List Char) : Except Fault Int32 :=
  within .malformed (((integer? chars).filter inInt32).map Int32.ofInt)

def readWord (chars : List Char) : Except Fault Nat :=
  within .malformed ((natural? chars).filter (· < UInt64.size))

def readFlag (chars : List Char) : Except Fault Bool :=
  if chars = "true".toList then .ok true
  else if chars = "false".toList then .ok false
  else .error .noChoice

def readDatabase (chars : List Char) : Except Fault Database :=
  within .noChoice (Database.all.find? fun database => database.name.toList = chars)

def readPath (chars : List Char) : Except Fault String :=
  if chars = [] then .error .noChoice else .ok (String.ofList chars)

end Values

def assign (settings : Settings) (chars : List Char) : Setting → Except Fault Settings
  | .address => (within .malformed (Address.ip? chars)).map fun a => { settings with address := a }
  | .port => (readPort chars).map fun n => { settings with port := n }
  | .database => (readDatabase chars).map fun d => { settings with database := d }
  | .path => (readPath chars).map fun p => { settings with path := p }
  | .maxLength => (readWord chars).map fun n => { settings with policy.maxLength := n }
  | .forceOneTime => (readFlag chars).map fun b => { settings with policy.forceOneTime := b }
  | .forceExpiration =>
      (readInt32 chars).map fun n => { settings with policy.maxExpiration := some n }
  | .disableUpload => (readFlag chars).map fun b => { settings with uploadDisabled := b }
  | .allowOrigin => .ok { settings with allowOrigin := String.ofList chars }
  | .strictTransport => (readFlag chars).map fun b => { settings with strictTransport := b }
  | .sweepInterval => (readWord chars).map fun n => { settings with sweepInterval := n }
  | .logLevel => .ok { settings with logLevel := String.ofList chars }

/-- Limits come before the policy. -/
def check (settings : Settings) : Except Error Unit :=
  if settings.policy.maxLength = 0 then .error (.settings "max length must be positive")
  else if settings.sweepInterval = 0 then .error (.settings "sweep interval must be positive")
  else
    match settings.policy.maximum with
    | .error fault => .error (.policy fault)
    | .ok _ => .ok ()

def endpoint (settings : Settings) : String :=
  String.ofList (Address.writeEndpoint settings.port settings.address)

def http (settings : Settings) : Http.Settings :=
  ⟨settings.allowOrigin, settings.uploadDisabled, settings.strictTransport⟩

end Settings

end DeadDrop.Server
