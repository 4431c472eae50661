/-!
Why sealing or opening fails. Causes are data; the words for them are in `message`.
-/

namespace DeadDrop.Envelope

inductive Defect where
  | truncated (wanted : Nat)
  | header (octet : UInt8)
  | keyLength (length : Nat)
  | unexpectedPacket (tag : UInt8)
  | unexpectedInside (tag : UInt8)
  | noEncryptedData
  | noSessionKey
  | emptyEncryptedData
  | encryptedDataTooShort
  | emptyCompressedData
  | corruptCompression
  | incompleteCompression
  | noLiteralData
  | other (detail : String)
  deriving DecidableEq, Repr

inductive Unsupported where
  | unprotectedData
  | publicKeySession
  | sessionKeyVersion (version : UInt8)
  | dataVersion (version : UInt8)
  | cipher (number : UInt8)
  | digest (number : UInt8)
  | specifier (number : UInt8)
  | compression (number : UInt8)
  | other (detail : String)
  deriving DecidableEq, Repr

inductive Error where
  | emptyKey
  | invalidKey
  | invalidMessage
  | malformed (defect : Defect)
  | unsupported (what : Unsupported)
  | integrity
  | randomSource (detail : String)
  | io (detail : String)
  deriving DecidableEq, Repr

def hexOctet (octet : UInt8) : String :=
  String.ofList ('0' :: 'x' :: (if octet < 16 then ['0'] else []) ++ Nat.toDigits 16 octet.toNat)

def Defect.message : Defect → String
  | truncated wanted => s!"truncated: wanted {wanted} bytes"
  | header octet => "bad packet header " ++ hexOctet octet
  | keyLength length => s!"bad key length {length}"
  | unexpectedPacket tag => s!"unexpected packet tag {tag}"
  | unexpectedInside tag => s!"unexpected packet tag {tag} inside encrypted data"
  | noEncryptedData => "no encrypted data packet"
  | noSessionKey => "no session key packet"
  | emptyEncryptedData => "empty encrypted data packet"
  | encryptedDataTooShort => "encrypted data too short"
  | emptyCompressedData => "empty compressed packet"
  | corruptCompression => "corrupt compressed data: corrupt deflate stream"
  | incompleteCompression => "corrupt compressed data: incomplete deflate stream"
  | noLiteralData => "no literal data"
  | other detail => detail

def Unsupported.message : Unsupported → String
  | unprotectedData => "encrypted data without integrity protection"
  | publicKeySession => "public-key encrypted session key"
  | sessionKeyVersion version => s!"SKESK version {version}"
  | dataVersion version => s!"SEIPD version {version}"
  | cipher number => s!"symmetric algorithm {number}"
  | digest number => s!"S2K hash algorithm {number}"
  | specifier number => s!"S2K type {number}"
  | compression number => s!"compression algorithm {number}"
  | other detail => detail

namespace Error

def message : Error → String
  | emptyKey => "empty encryption key"
  | invalidKey => "invalid decryption key"
  | invalidMessage => "invalid message"
  | malformed defect => "malformed packet: " ++ defect.message
  | unsupported what => "unsupported: " ++ what.message
  | integrity => "integrity check failed"
  | randomSource detail => "random source failure: " ++ detail
  | io detail => "I/O error: " ++ detail

/-- Another key could help; with every other error the message itself is at fault. -/
def isKeyError : Error → Bool
  | emptyKey | invalidKey => true
  | _ => false

end Error

theorem bind_eq_ok_iff {α β : Type} {first : Except Error α} {next : α → Except Error β}
    {result : β} :
    first >>= next = .ok result ↔ ∃ value, first = .ok value ∧ next value = .ok result := by
  constructor
  · intro done
    cases first with
    | error error => cases done
    | ok value => exact ⟨value, rfl, done⟩
  · rintro ⟨value, rfl, done⟩
    exact done

end DeadDrop.Envelope
