import DeadDrop.Policy
import DeadDrop.Store.Basic

/-!
What keeps a server from running: its settings, its policy, its store or its network. The first
two are for whoever set it up to mend.
-/

namespace DeadDrop.Server

inductive Error where
  | settings (detail : String)
  | policy (fault : Policy.Misconfiguration)
  | storage (cause : Store.Error)
  | transport (reason : String)
  deriving DecidableEq

namespace Error

def cause? : Error → Option String
  | settings _ => none
  | policy fault => some fault.message
  | storage cause => some cause.message
  | transport reason => some reason

def message : Error → String
  | settings detail => "configuration error: " ++ detail
  | policy fault => "policy error: " ++ fault.message
  | storage cause => "storage error: " ++ cause.message
  | transport reason => "transport error: " ++ reason

def blamesSettings : Error → Bool
  | settings _ | policy _ => true
  | storage _ | transport _ => false

end Error

end DeadDrop.Server
