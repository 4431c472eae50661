import DeadDrop.Http.Message
import DeadDrop.Text.Blank

/-!
Routes. Secrets are reached under two names that mean the same; the second can be switched off.
A path segment that stands for an id is never empty and is still percent-encoded here.
-/

namespace DeadDrop.Http

inductive Route where
  | drop
  | secret (id : List Char)
  | status (id : List Char)
  | settings
  | health
  deriving DecidableEq

namespace Route

def isFamily (uploads : Bool) (name : List Char) : Bool :=
  name = "secret".toList || (uploads && name = "file".toList)

def find? (uploads : Bool) (path : List Char) : Option Route :=
  match Text.Blank.splitOn '/' path with
  | [[], name] =>
      if isFamily uploads name then some drop
      else if name = "config".toList then some settings
      else if name = "health".toList then some health
      else none
  | [[], name, id] => if isFamily uploads name && id ≠ [] then some (secret id) else none
  | [[], name, id, last] =>
      if isFamily uploads name && id ≠ [] && last = "status".toList then some (status id) else none
  | _ => none

def allowed : Route → List Method
  | drop => [.post]
  | secret _ => [.get, .head, .delete]
  | status _ | settings | health => [.get, .head]

def allowHeader (route : Route) : Header :=
  ("allow", ",".intercalate (route.allowed.map Method.text))

end Route

end DeadDrop.Http
