import DeadDrop.Secret.Lifetime

/-!
What is left in the drop: an armored message, how long it may wait in seconds, and whether the
first reader takes it away. The seconds are as the sender wrote them and may name no lifetime.
-/

namespace DeadDrop

structure Secret where
  expiration : Int32
  message : String
  oneTime : Bool
  deriving DecidableEq

namespace Secret

def ofLifetime (message : String) (lifetime : Lifetime) (oneTime : Bool) : Secret :=
  ⟨lifetime.seconds, message, oneTime⟩

def lifetime? (secret : Secret) : Option Lifetime := Lifetime.ofSeconds? secret.expiration

def size (secret : Secret) : Nat := secret.message.utf8ByteSize

end Secret

end DeadDrop
