import DeadDrop.Json.Fault
import DeadDrop.Text.Quoted

/-!
Why something that two parties exchange is not what it should be.
-/

namespace DeadDrop.Exchange

inductive Error where
  | secretId (text : String)
  | lifetime (seconds : Int32)
  | address (reason : String)
  | linkKind (link : String)
  | record (reason : String)
  deriving DecidableEq

def Error.message : Error → String
  | secretId text => "invalid secret id: " ++ Text.Quoted.quote text
  | lifetime seconds => s!"invalid expiration: {seconds.toInt}"
  | address reason => "invalid URL: " ++ reason
  | linkKind link => "unexpected URL: " ++ Text.Quoted.quote link
  | record reason => "serialization error: " ++ reason

end DeadDrop.Exchange
