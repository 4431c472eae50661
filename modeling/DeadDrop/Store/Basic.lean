import DeadDrop.Clock
import DeadDrop.Secret.Basic
import DeadDrop.Secret.Id

/-!
What every store does: five operations, each one step that reads the clock, answers and leaves
the store in a state. A store of lifetimes refuses a secret whose expiration is not positive.
-/

namespace DeadDrop

namespace Store

inductive Error where
  | notFound
  | lifetime (seconds : Int32)
  | record (detail : String)
  | io (detail : String)
  | calendarEnd
  deriving DecidableEq

def Error.message : Error → String
  | notFound => "secret not found"
  | lifetime seconds => s!"invalid expiration: {seconds.toInt}"
  | record detail => "serialization error: " ++ detail
  | io detail => "I/O error: " ++ detail
  | calendarEnd => "the calendar has ended"

def Error.isNotFound : Error → Bool
  | notFound => true
  | _ => false

abbrev Answer (State α : Type) := Except Error α × State

end Store

structure Store (State : Type) where
  get : Clock → SecretId → State → Store.Answer State Secret
  put : Clock → SecretId → Secret → State → Store.Answer State Unit
  delete : Clock → SecretId → State → Store.Answer State Bool
  status : Clock → SecretId → State → Store.Answer State Bool
  purge : Clock → State → Store.Answer State Nat

namespace Store

def span (secret : Secret) : Except Error Nat :=
  if 0 < secret.expiration.toInt then .ok secret.expiration.toInt.toNat
  else .error (.lifetime secret.expiration)

def found {α : Type} : Option α → Except Error α
  | some value => .ok value
  | none => .error .notFound

end Store

end DeadDrop
