import DeadDrop.Courier.Basic
import DeadDrop.Envelope.Open
import DeadDrop.Envelope.Seal
import DeadDrop.Envelope.ShareKey
import DeadDrop.Exchange.Link

/-!
From plaintext to link and back. Sealing and opening happen here, on the courier's side, so a
server sees neither plaintext nor key. A link that cannot be opened for a reason that lies in the
link or in the key sends nobody anywhere.
-/

namespace DeadDrop.Courier

inductive Plaintext where
  | octets (source : Envelope.Source)
  | file (file : Except String Envelope.File)

/-- A key of the sender's own choice stays out of the link. -/
structure Terms where
  lifetime : Lifetime
  oneTime : Bool
  key : Option String
  page : String
  deriving DecidableEq

structure Shared where
  id : SecretId
  key : String
  link : String
  deriving DecidableEq

def Plaintext.family : Plaintext → Family
  | .octets _ => .message
  | .file _ => .file

def Plaintext.seal (randomness : Envelope.Randomness) (key : String) :
    Plaintext → Except Envelope.Error String
  | .octets source => Envelope.encryptWith randomness none key source
  | .file found => Envelope.encryptFile randomness key found

structure Chance where
  key : Sized Envelope.ShareKey.length
  envelope : Envelope.Randomness

def Terms.keyFrom (terms : Terms) (chance : Chance) : String :=
  terms.key.getD (Envelope.ShareKey.ofRandom chance.key)

def linkTo (terms : Terms) (family : Family) (id : SecretId) (key : String) : String :=
  Link.write terms.page ⟨id.text, key, ⟨family = .file, terms.key.isSome⟩⟩

variable {State : Type}

def share (courier : Courier) (carrier : Carrier State) (chance : Chance) (plaintext : Plaintext)
    (terms : Terms) (state : State) : Except Error Shared × State :=
  let key := terms.keyFrom chance
  match plaintext.seal chance.envelope key with
  | .error error => (.error (.envelope error), state)
  | .ok armored =>
      let secret := Secret.ofLifetime armored terms.lifetime terms.oneTime
      let (answer, state) := courier.store carrier plaintext.family secret state
      (answer.map fun id => ⟨id, key, linkTo terms plaintext.family id key⟩, state)

/-- What a link asks to be fetched, and the key for it. -/
structure Ticket where
  family : Family
  id : SecretId
  key : String
  deriving DecidableEq

/-- The key of the link comes first; an empty key is none. -/
def keyOf (link : Link) (supplied : Option String) : Except Error String :=
  if link.key ≠ "" then .ok link.key
  else
    match supplied.filter (· ≠ "") with
    | some key => .ok key
    | none => .error .missingKey

def ticket [Url.Names] (link : String) (supplied : Option String) : Except Error Ticket := do
  let link ← (Link.parse link).mapError .exchange
  let key ← keyOf link supplied
  let id ← (Exchange.parseId link.id).mapError .exchange
  return ⟨if link.kind.file then .file else .message, id, key⟩

def reveal (secret : Secret) (key : String) : Except Error Envelope.Decrypted :=
  match Envelope.decrypt (.ofBytes (Text.Utf8.bytes secret.message)) key with
  | some answer => answer.mapError .envelope
  | none => .error (.internal "layers nested too deeply")

/-- A one-time secret is gone once it has been fetched, whether or not the key fits. -/
def collect [Url.Names] (courier : Courier) (carrier : Carrier State) (link : String)
    (supplied : Option String) (state : State) : Except Error Envelope.Decrypted × State :=
  match ticket link supplied with
  | .error error => (.error error, state)
  | .ok ticket =>
      let (answer, state) := courier.fetch carrier ticket.family ticket.id state
      (answer.bind fun secret => reveal secret ticket.key, state)

end DeadDrop.Courier
