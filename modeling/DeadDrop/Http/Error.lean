import DeadDrop.Service

/-!
What a client is told when a request fails. Failures of the store keep their cause to themselves.
-/

namespace DeadDrop.Http

inductive Error where
  | service (error : Service.Error)
  | invalidJson
  | payloadTooLarge
  | noRoute
  | internal (detail : String)
  deriving DecidableEq

namespace Error

def message : Error → String
  | service error => error.message
  | invalidJson => "Unable to parse json"
  | payloadTooLarge => "The encrypted message is too long"
  | noRoute => "Not found"
  | internal _ => "Internal server error"

def status : Error → Nat
  | service (.refused _) | invalidJson | payloadTooLarge => 400
  | service .notFound | noRoute => 404
  | service _ | internal _ => 500

/-- A store that cannot tell the time gives no answer of its own. -/
def ofService (error : Service.Error) : Error :=
  match error.storeCause? with
  | some .calendarEnd => internal Store.Error.calendarEnd.message
  | _ => service error

end Error

end DeadDrop.Http
