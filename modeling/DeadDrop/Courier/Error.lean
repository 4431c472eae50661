import DeadDrop.Envelope.Error
import DeadDrop.Exchange.Error
import DeadDrop.Url.Host

/-!
Why an errand failed. Only what the other side may still mend is worth another try: a server that
could not be reached, or one that blames itself.
-/

namespace DeadDrop.Courier

inductive Error where
  | unreachable (reason : String)
  | garbled (reason : String)
  | server (status : Nat) (message : String)
  | envelope (error : Envelope.Error)
  | exchange (error : Exchange.Error)
  | address (fault : Url.Fault)
  | missingKey
  | internal (detail : String)
  deriving DecidableEq

namespace Error

def message : Error → String
  | unreachable reason | garbled reason => "request failed: " ++ reason
  | server status message => s!"server returned {status}: " ++ message
  | envelope error => error.message
  | exchange error => error.message
  | address fault => "invalid API url: " ++ fault.message
  | missingKey => "this link needs a decryption key"
  | internal detail => "internal error: " ++ detail

def isNotFound : Error → Bool
  | server status _ => status = 404
  | _ => false

def isFatal : Error → Bool
  | unreachable _ => false
  | server status _ => status < 500
  | _ => true

end Error

end DeadDrop.Courier
