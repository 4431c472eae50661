import DeadDrop.Envelope.Seal
import DeadDrop.Envelope.ShareKey
import DeadDrop.Inflate.Stream

/-!
Opening. The armor gives packets; session key packets and markers may precede the protected data.
The key is tried on the first session key packet only, since a second request for it fails. What
the session key decrypts must repeat two octets of the filler and end in a digest of itself before
anything in it is read. Inside, compression layers are taken off until a literal packet appears.
-/

namespace DeadDrop.Envelope

open Packet (Cursor)

section Inside

def readLiteral (body : Bytes) : Except Error Decrypted := do
  let (format, cursor) ← Cursor.octet ⟨body⟩
  let (length, cursor) ← cursor.octet
  let (name, cursor) ← cursor.take length.toNat
  let (_, cursor) ← cursor.take 4
  let filename := if format = fileFormat then some (Text.Utf8.textLossy name) else none
  return ⟨cursor.rest, filename⟩

def defectOf : Inflate.Fault → Defect
  | .corrupt => .corruptCompression
  | .incomplete => .incompleteCompression

/-- One layer taken off: data that was only stored is shorter than its packet, other data need not
be. -/
inductive Unwrapped where
  | stored (data : Bytes)
  | inflated (data : Bytes)

def unwrap (body : Bytes) : Except Error Unwrapped :=
  match body with
  | [] => .error (.malformed .emptyCompressedData)
  | method :: data =>
      let inflating (result : Except Inflate.Fault Bytes) : Except Error Unwrapped :=
        match result with
        | .ok out => .ok (.inflated out)
        | .error fault => .error (.malformed (defectOf fault))
      if method = 0 then .ok (.stored data)
      else if method = 1 then inflating (Inflate.inflate data)
      else if method = 2 then inflating (Inflate.inflateWrapped data)
      else .error (.unsupported (.compression method))

/-- The first packet that is no marker decides. -/
def firstInside : List Packet → Except Error Packet
  | [] => .error (.malformed .noLiteralData)
  | packet :: rest =>
      if packet.tag = Packet.Tag.marker then firstInside rest
      else if packet.tag = Packet.Tag.literal ∨ packet.tag = Packet.Tag.compressed then .ok packet
      else .error (.malformed (.unexpectedInside packet.tag))

/-- Either the literal data, or the next layer to look into. -/
def peel (data : Bytes) : Except Error (Decrypted ⊕ Unwrapped) := do
  let packet ← firstInside (← Packet.readAll data)
  if packet.tag = Packet.Tag.literal then return .inl (← readLiteral packet.body)
  else return .inr (← unwrap packet.body)

/-- Layers that may grow are bounded by `depth`, stored ones in a row by `room`. A stored layer
is shorter than what holds it, so `room` is never used up; `none` means `depth` was. -/
def look (depth room : Nat) (data : Bytes) : Option (Except Error Decrypted) :=
  match peel data with
  | .error error => some (.error error)
  | .ok (.inl literal) => some (.ok literal)
  | .ok (.inr (.stored inner)) =>
      match room with
      | 0 => none
      | room + 1 => look depth room inner
  | .ok (.inr (.inflated inner)) =>
      match depth with
      | 0 => none
      | depth + 1 => look depth inner.length inner
termination_by (depth, room)

end Inside

section Protected

def fillerLength : Nat := 18
def detectionLength : Nat := 22

/-- There is `none` when the repeated octets show that the session key is not the right one. -/
def verify (plain : Bytes) : Except Error (Option Bytes) :=
  if (plain.drop 14).take 2 ≠ (plain.drop 16).take 2 then .ok none
  else
    let hashed := plain.take (plain.length - 20)
    let digest := plain.drop (plain.length - 20)
    if hashed.drop (hashed.length - 2) ≠ detectionHeader
        ∨ Digest.sha1.ofBytes hashed ≠ digest then .error .integrity
    else .ok (some ((plain.take (plain.length - detectionLength)).drop fillerLength))

def openProtected (body : Bytes) (algorithm : Cipher.Algorithm) (sessionKey : Bytes) :
    Except Error (Option Bytes) :=
  match body with
  | [] => .error (.malformed .emptyEncryptedData)
  | version :: ciphertext => do
      if version ≠ dataVersion then .error (.unsupported (.dataVersion version))
      if ciphertext.length < fillerLength + detectionLength then
        .error (.malformed .encryptedDataTooShort)
      let key ← keyFor algorithm sessionKey
      verify (Cipher.Feedback.start.apply key.block .decrypt ciphertext).2

end Protected

section Session

def cipherOf (number : UInt8) : Except Error Cipher.Algorithm :=
  match Cipher.Algorithm.ofNumber? number with
  | some algorithm => .ok algorithm
  | none => .error (.unsupported (.cipher number))

/-- A decrypted session key names its own cipher and must have that cipher's size. -/
def plausibleKey : Bytes → Option (Cipher.Algorithm × Bytes)
  | [] => none
  | number :: key =>
      match Cipher.Algorithm.ofNumber? number with
      | some algorithm => if key.length = algorithm.keySize then some (algorithm, key) else none
      | none => none

/-- There is `none` when the passphrase gives no plausible session key. -/
def unlock (body passphrase : Bytes) : Except Error (Option (Cipher.Algorithm × Bytes)) := do
  let (version, cursor) ← Cursor.octet ⟨body⟩
  if version ≠ sessionKeyVersion then .error (.unsupported (.sessionKeyVersion version))
  let (number, cursor) ← cursor.octet
  let algorithm ← cipherOf number
  let (specifier, cursor) ← Specifier.read cursor
  let derived := specifier.derive passphrase algorithm.keySize
  if cursor.isEmpty then return some (algorithm, derived)
  else
    let key ← keyFor algorithm derived
    return plausibleKey (Cipher.Feedback.start.apply key.block .decrypt cursor.rest).2

end Session

structure Sealed where
  sessions : List Bytes
  data : Bytes
  deriving DecidableEq

/-- Session keys up to the protected data; what follows it is not looked at. -/
def gather (sessions : List Bytes) : List Packet → Except Error Sealed
  | [] => .error (.malformed .noEncryptedData)
  | packet :: rest =>
      if packet.tag = Packet.Tag.sessionKey then gather (packet.body :: sessions) rest
      else if packet.tag = Packet.Tag.protectedData then
        if sessions = [] then .error (.malformed .noSessionKey)
        else .ok ⟨sessions.reverse, packet.body⟩
      else if packet.tag = Packet.Tag.unprotected then .error (.unsupported .unprotectedData)
      else if packet.tag = Packet.Tag.marker then gather sessions rest
      else if packet.tag = Packet.Tag.publicKeySession then
        .error (.unsupported .publicKeySession)
      else .error (.malformed (.unexpectedPacket packet.tag))

def trySessions (data : Bytes) (provider : OneShotKey) : List Bytes → Except Error Bytes
  | [] => .error .invalidKey
  | body :: rest => do
      let (passphrase, provider) := provider.provide
      match ← unlock body (← passphrase) with
      | none => trySessions data provider rest
      | some (algorithm, sessionKey) =>
          match ← openProtected data algorithm sessionKey with
          | none => trySessions data provider rest
          | some inner => return inner

def readMessage (ciphertext : Source) : Except Error Sealed :=
  match ciphertext.failure, Text.Utf8.decode? ciphertext.contents with
  | none, some text =>
      match Armor.decode? text with
      | some binary => Packet.readAll binary >>= gather []
      | none => .error .invalidMessage
  | _, _ => .error .invalidMessage

/-- The verified inside of the protected data. -/
def reveal (ciphertext : Source) (key : String) : Except Error Bytes := do
  let message ← readMessage ciphertext
  trySessions message.data (.new (Text.Utf8.bytes key)) message.sessions

/-- There is `none` if more than `depth` layers of compression grow out of each other. -/
def decryptWithin (depth : Nat) (ciphertext : Source) (key : String) :
    Option (Except Error Decrypted) :=
  match reveal ciphertext key with
  | .error error => some (.error error)
  | .ok inner => look depth inner.length inner

/-- How many growing layers are followed before a message is given up. -/
def layerLimit : Nat := 100000

def decrypt (ciphertext : Source) (key : String) : Option (Except Error Decrypted) :=
  decryptWithin layerLimit ciphertext key

end DeadDrop.Envelope
