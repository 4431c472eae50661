import DeadDrop.Armor.Base64
import DeadDrop.Envelope.Error

/-!
Keys of envelopes. A generated key is 22 URL-safe characters cut from the text of 22 random
octets. While a message is opened its key is handed out once; a second request fails.
-/

namespace DeadDrop.Envelope

namespace ShareKey

def length : Nat := 22

def ofRandom (random : Sized length) : String :=
  String.ofList ((Armor.Base64.encode .urlSafe random.val).take length)

end ShareKey

structure OneShotKey where
  key : Bytes
  spent : Bool
  deriving DecidableEq

namespace OneShotKey

def new (key : Bytes) : OneShotKey := ⟨key, false⟩

def provide (provider : OneShotKey) : Except Error Bytes × OneShotKey :=
  if provider.spent then (.error .invalidKey, provider)
  else (.ok provider.key, { provider with spent := true })

end OneShotKey

end DeadDrop.Envelope
