import DeadDrop.Armor.Frame
import DeadDrop.Cipher.Keyed
import DeadDrop.Envelope.Payload
import DeadDrop.Envelope.Specifier
import DeadDrop.Packet.Frame
import DeadDrop.Text.Utf8

/-!
Sealing. A message is a session key packet, whose key is encrypted under the passphrase, and a
protected data packet. The protected stream is a random filler, its last two octets again, a
literal packet and a digest of all that; it is encrypted as it passes. Literal packet, protected
stream, data packet and armor are four machines in a row, so the content is never held as a whole
and the sizes of the reads do not show.
-/

namespace DeadDrop.Envelope

open Cipher (Feedback)

def armorComment : String × String := ("Comment", "https://github.com/vanish-secrets/vanish")

def sealCipher : Cipher.Algorithm := .aes256

def sessionKeyVersion : UInt8 := 4
def dataVersion : UInt8 := 1

def detectionHeader : Bytes := [0xD3, 0x14]

def fileFormat : UInt8 := 0x62
def textFormat : UInt8 := 0x75

/-- Names are cut to what their one length octet can count. -/
def literalHeader : Option Hints → Bytes
  | some hints =>
      let name := (Text.Utf8.bytes hints.filename).take 255
      fileFormat :: UInt8.ofNat name.length :: name ++ Bytes.ofNat 4 hints.modified.toNat
  | none => [textFormat, 0, 0, 0, 0, 0]

def fillerBlock (filler : Sized 16) : Bytes := filler.val ++ filler.val.drop 14

structure Protecting where
  stream : Feedback
  seen : Digest.sha1.State

def protector (block : Bytes → Bytes) : Transducer UInt8 UInt8 where
  State := Protecting
  start := ⟨.start, Digest.sha1.start⟩
  opening := []
  feed state chunk :=
    let (stream, out) := state.stream.apply block .encrypt chunk
    (⟨stream, Digest.sha1.absorbAll state.seen chunk⟩, out)
  close state :=
    let (stream, header) := state.stream.apply block .encrypt detectionHeader
    let digest := Digest.sha1.finish (Digest.sha1.absorbAll state.seen detectionHeader)
    header ++ (stream.apply block .encrypt digest).2

def keyFor (algorithm : Cipher.Algorithm) (bytes : Bytes) :
    Except Error (Cipher.Key algorithm) :=
  match Cipher.Key.ofBytes? algorithm bytes with
  | some key => .ok key
  | none => .error (.malformed (.keyLength bytes.length))

def sessionKeyPacket (passphrase : Bytes) (randomness : Randomness) : Except Error Packet := do
  let specifier := Specifier.standard randomness.salt
  let key ← keyFor sealCipher (specifier.derive passphrase sealCipher.keySize)
  let secret := sealCipher.number :: randomness.sessionKey.val
  let (_, hidden) := Feedback.start.apply key.block .encrypt secret
  return ⟨Packet.Tag.sessionKey,
    sessionKeyVersion :: sealCipher.number :: specifier.write ++ hidden⟩

def machine (hints : Option Hints) (randomness : Randomness) (session : Packet)
    (key : Cipher.Key sealCipher) : Transducer UInt8 Char :=
  let literal := (Packet.partialWriter Packet.Tag.literal).preceded (literalHeader hints)
  let stream := (protector key.block).preceded (fillerBlock randomness.filler)
  let data := (Packet.partialWriter Packet.Tag.protectedData).preceded [dataVersion]
  let armor := (Armor.writer [armorComment]).preceded session.write
  ((literal.into stream).into data).into armor

/-- The armored message for a plaintext. An empty key is refused before anything is read. -/
def encryptWith (randomness : Randomness) (hints : Option Hints) (key : String)
    (plaintext : Source) : Except Error String := do
  if key.isEmpty then .error .emptyKey
  let session ← sessionKeyPacket (Text.Utf8.bytes key) randomness
  let dataKey ← keyFor sealCipher randomness.sessionKey.val
  match plaintext.failure with
  | some detail => .error (.io detail)
  | none =>
      return String.ofList ((machine hints randomness session dataKey).run plaintext.reads)

/-- A file that is not there fails after the key has been looked at. -/
def encryptFile (randomness : Randomness) (key : String) (file : Except String File) :
    Except Error String := do
  if key.isEmpty then .error .emptyKey
  match file with
  | .error detail => .error (.io detail)
  | .ok file => encryptWith randomness (some file.hints) key (.ofBytes file.content)

end DeadDrop.Envelope
