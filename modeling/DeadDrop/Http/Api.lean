import DeadDrop.Exchange.Record
import DeadDrop.Http.Error
import DeadDrop.Http.MediaType
import DeadDrop.Http.Route
import DeadDrop.Url.Percent

/-!
The drop over HTTP. A request is matched to a route, the route and method to a call of the
service, and the answer is dressed in the headers that every response carries. Requests with
method OPTIONS never reach a route.
-/

namespace DeadDrop.Http

structure Settings where
  allowOrigin : String
  uploadDisabled : Bool
  strictTransport : Bool
  deriving DecidableEq

namespace Settings

def standard : Settings := ⟨"*", false, false⟩

/-- The origin is sent as a header. -/
def check (settings : Settings) : Except String Unit :=
  if isHeaderValue settings.allowOrigin then .ok ()
  else .error ("invalid CORS origin: " ++ Text.Quoted.quote settings.allowOrigin)

end Settings

structure Api (State Seed : Type) where
  service : Service State Seed
  settings : Settings

section Responses

def json (status : Nat) (body : String) : Response :=
  ⟨status, [("content-type", "application/json")], body⟩

def plain (status : Nat) (body : String) : Response :=
  ⟨status, [("content-type", "text/plain; charset=utf-8")], body⟩

def empty (status : Nat) : Response := ⟨status, [], ""⟩

def Error.response (error : Error) : Response :=
  json error.status (Exchange.Notice.encode ⟨error.message⟩)

def badSegment : Response := plain 400 "Invalid URL: Invalid UTF-8 in `id`"

end Responses

section Dress

def security : List Header := [
  ("x-content-type-options", "nosniff"),
  ("x-frame-options", "DENY"),
  ("referrer-policy", "no-referrer"),
  ("x-xss-protection", "1; mode=block"),
  ("content-security-policy", "default-src 'none'; frame-ancestors 'none'")]

def strictTransport : Header :=
  ("strict-transport-security", "max-age=31536000; includeSubDomains")

def vary : Header :=
  ("vary", "origin, access-control-request-method, access-control-request-headers")

def common (settings : Settings) : List Header :=
  vary :: ("access-control-allow-origin", settings.allowOrigin) :: security
    ++ (if settings.strictTransport then [strictTransport] else [])

def preflight : Response := ⟨200, [
  ("access-control-allow-methods", "GET,POST,DELETE,OPTIONS"),
  ("access-control-allow-headers", "content-type")], ""⟩

/-- The length is that of the body even where the body itself is not sent. -/
def dress (settings : Settings) (method : Method) (response : Response) : Response :=
  let length := ("content-length", toString response.body.utf8ByteSize)
  { response with
    headers := response.headers ++ length :: common settings
    body := if method = .head then "" else response.body }

end Dress

namespace Api

variable {State Seed α : Type}

abbrev Step (State Seed : Type) := Service.World State Seed → Response × Service.World State Seed

def always (response : Response) : Step State Seed := fun world => (response, world)

def answer (good : α → Response)
    (call : Service.World State Seed → Service.Reply State Seed α) : Step State Seed :=
  fun world =>
    match call world with
    | (.ok value, world) => (good value, world)
    | (.error error, world) => ((Error.ofService error).response, world)

def lastWord : Nat := UInt64.size - 1

/-- Twice the longest message, for escapes, and room for the rest of the record, within a word. -/
def bodyLimit (policy : Policy) : Nat :=
  min (min (policy.maxLength * 2) lastWord + 1024) lastWord

def readSecret (policy : Policy) (request : Request) : Except Error Secret :=
  if !((request.header? "content-type").map MediaType.isJson).getD false then .error .invalidJson
  else if bodyLimit policy < request.body.length then .error .payloadTooLarge
  else
    match Secret.decodeFront? request.body with
    | some secret => .ok secret
    | none => .error .invalidJson

def create (api : Api State Seed) (request : Request) : Step State Seed :=
  match readSecret api.service.policy request with
  | .error error => always error.response
  | .ok secret =>
      answer (fun id => json 200 (Exchange.Notice.encode ⟨id.text⟩)) (api.service.create secret)

def segmentText? (segment : List Char) : Option String :=
  Text.Utf8.text? (Url.Percent.decode (segment.flatMap String.utf8EncodeChar))

/-- What is no id at all is answered like an id that is not there. -/
def withId (segment : List Char) (step : SecretId → Step State Seed) : Step State Seed :=
  match segmentText? segment with
  | none => always badSegment
  | some text =>
      match SecretId.ofText? text with
      | some id => step id
      | none => always (Error.service .notFound).response

def read (api : Api State Seed) (id : SecretId) : Step State Seed :=
  answer (fun secret => json 200 secret.encode) (api.service.retrieve id)

def remove (api : Api State Seed) (id : SecretId) : Step State Seed :=
  answer (fun existed => if existed then empty 204 else (Error.service .notFound).response)
    (api.service.delete id)

def inspect (api : Api State Seed) (id : SecretId) : Step State Seed :=
  answer (fun oneTime => json 200 (Exchange.Status.encode ⟨oneTime⟩)) (api.service.status id)

def advertised (api : Api State Seed) : Exchange.Advertised :=
  ⟨api.settings.uploadDisabled, api.service.policy.forceOneTime,
    api.service.policy.maxExpiration⟩

def notAllowed (route : Route) : Response := ⟨405, [route.allowHeader], ""⟩

/-- HEAD runs what GET runs. -/
def run (api : Api State Seed) (request : Request) : Route → Method → Step State Seed
  | .drop, .post => api.create request
  | .secret id, .get | .secret id, .head => withId id api.read
  | .secret id, .delete => withId id api.remove
  | .status id, .get | .status id, .head => withId id api.inspect
  | .settings, .get | .settings, .head => always (json 200 api.advertised.encode)
  | .health, .get | .health, .head => always (plain 200 "ok")
  | route, _ => always (notAllowed route)

def route? (api : Api State Seed) (request : Request) : Option Route :=
  Route.find? (!api.settings.uploadDisabled) request.path

def permit (route : Option Route) : Response :=
  { preflight with headers := preflight.headers ++ (route.map Route.allowHeader).toList }

def handle (api : Api State Seed) (request : Request) : Step State Seed := fun world =>
  let route := api.route? request
  let (response, world) :=
    if request.method = .options then (permit route, world)
    else
      match route with
      | none => (Error.noRoute.response, world)
      | some route => api.run request route request.method world
  (dress api.settings request.method response, world)

end Api

end DeadDrop.Http
