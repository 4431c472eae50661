import DeadDrop.Http.Api
import DeadDrop.Proofs.Secret.Id
import DeadDrop.Proofs.Service.Calls
import DeadDrop.Proofs.Text.Blank
import DeadDrop.Proofs.Url.Percent

/-!
What a request comes to. Its route, its method and its body decide, before anything is known of
the store, which call of the service it makes, if it makes one at all. A request that makes none
changes nothing. One that makes a call leaves the world as the call leaves it, and the response
follows from the answer to the call.
-/

namespace DeadDrop

namespace Service.Event

/-- The call that an event is the answer to. -/
def call : Event → Call
  | created secret _ => .create secret
  | retrieved id _ => .retrieve id
  | deleted id _ => .delete id
  | inspected id _ => .status id
  | purged _ => .purge
  | waited nanoseconds => .wait nanoseconds

end Service.Event

theorem Service.call_of_perform {State Seed : Type} {service : Service State Seed} {call : Call}
    {world next : World State Seed} {event : Event}
    (performed : service.perform call world = some (event, next)) : event.call = call := by
  cases call with
  | wait nanoseconds =>
      obtain ⟨_, -, same⟩ := Option.map_eq_some_iff.mp performed
      cases same
      rfl
  | _ =>
      cases performed
      rfl

namespace Http

namespace Api

open Service (Call Event World)

variable {State Seed α : Type}

def idOf? (segment : List Char) : Option SecretId :=
  (segmentText? segment).bind SecretId.ofText?

def routed? (api : Api State Seed) (request : Request) : Route → Method → Option Call
  | .drop, .post => (readSecret api.service.policy request).toOption.map .create
  | .secret id, .get | .secret id, .head => (idOf? id).map .retrieve
  | .secret id, .delete => (idOf? id).map .delete
  | .status id, .get | .status id, .head => (idOf? id).map .status
  | _, _ => none

def call? (api : Api State Seed) (request : Request) : Option Call :=
  (api.route? request).bind fun route => api.routed? request route request.method

def named? (api : Api State Seed) (request : Request) : Option SecretId :=
  match api.route? request with
  | some (.secret segment) => idOf? segment
  | _ => none

/-- The response to a call, before it is dressed. Nobody asks over HTTP for a purge or to wait. -/
def respond : Event → Response
  | .created _ (.ok id) => json 200 (Exchange.Notice.encode ⟨id.text⟩)
  | .retrieved _ (.ok secret) => json 200 secret.encode
  | .deleted _ (.ok true) => empty 204
  | .inspected _ (.ok oneTime) => json 200 (Exchange.Status.encode ⟨oneTime⟩)
  | .created _ (.error error) | .retrieved _ (.error error)
  | .deleted _ (.error error) | .inspected _ (.error error) => (Error.ofService error).response
  | .deleted _ (.ok false) | .purged _ | .waited _ => (Error.service .notFound).response

inductive Ends (service : Service State Seed) (world : World State Seed) :
    Option Call → Response × World State Seed → Prop where
  | idle (response : Response) : Ends service world none (response, world)
  | called {event : Event} {next : World State Seed} :
      service.perform event.call world = some (event, next) →
      Ends service world (some event.call) (respond event, next)

variable {service : Service State Seed} {world : World State Seed}

theorem answer_eq (good : α → Response)
    (call : World State Seed → Service.Reply State Seed α) (world : World State Seed) :
    answer good call world =
      (match (call world).1 with
        | .ok value => good value
        | .error error => (Error.ofService error).response, (call world).2) := by
  unfold answer
  rcases call world with ⟨answer, next⟩
  cases answer <;> rfl

theorem ends_answer {call : Call} {event : Event} {good : α → Response}
    {asked : World State Seed → Service.Reply State Seed α}
    (performed : service.perform call world = some (event, (asked world).2))
    (told : respond event = match (asked world).1 with
      | .ok value => good value
      | .error error => (Error.ofService error).response) :
    Ends service world (some call) (answer good asked world) := by
  have same := Service.call_of_perform performed
  subst same
  rw [answer_eq, ← told]
  exact .called performed

theorem ends_of_call {call : Call} {response : Response}
    {next : World State Seed} (ends : Ends service world (some call) (response, next)) :
    ∃ event, response = respond event ∧ service.perform call world = some (event, next) := by
  generalize same : some call = asked at ends
  cases ends with
  | idle => cases same
  | called performed =>
      cases same
      exact ⟨_, rfl, performed⟩

theorem withId_eq (segment : List Char) (step : SecretId → Step State Seed) :
    withId segment step =
      match idOf? segment with
      | some id => step id
      | none => always (if (segmentText? segment).isSome then (Error.service .notFound).response
          else badSegment) := by
  unfold withId idOf?
  cases segmentText? segment with
  | none => rfl
  | some text =>
      dsimp only [Option.bind_some]
      cases SecretId.ofText? text with
      | none => rfl
      | some id => rfl

theorem ends_withId (segment : List Char) (step : SecretId → Step State Seed)
    (call : SecretId → Call)
    (ends : ∀ id, Ends service world (some (call id)) (step id world)) :
    Ends service world ((idOf? segment).map call) (withId segment step world) := by
  rw [withId_eq]
  cases idOf? segment with
  | none => exact .idle _
  | some id => exact ends id

theorem ends_create (api : Api State Seed) (request : Request) (world : World State Seed) :
    Ends api.service world
      ((readSecret api.service.policy request).toOption.map .create)
      (api.create request world) := by
  unfold create
  cases given : readSecret api.service.policy request with
  | error error => exact .idle _
  | ok secret =>
      have performed : api.service.perform (.create secret) world =
          some (.created secret (api.service.create secret world).1, _) := rfl
      refine ends_answer performed ?_
      cases (api.service.create secret world).1 <;> rfl

theorem ends_read (api : Api State Seed) (id : SecretId) (world : World State Seed) :
    Ends api.service world (some (.retrieve id)) (api.read id world) := by
  have performed : api.service.perform (.retrieve id) world =
      some (.retrieved id (api.service.retrieve id world).1, _) := rfl
  refine ends_answer performed ?_
  cases (api.service.retrieve id world).1 <;> rfl

theorem ends_remove (api : Api State Seed) (id : SecretId) (world : World State Seed) :
    Ends api.service world (some (.delete id)) (api.remove id world) := by
  have performed : api.service.perform (.delete id) world =
      some (.deleted id (api.service.delete id world).1, _) := rfl
  refine ends_answer performed ?_
  rcases (api.service.delete id world).1 with error | existed
  · rfl
  · cases existed <;> rfl

theorem ends_inspect (api : Api State Seed) (id : SecretId) (world : World State Seed) :
    Ends api.service world (some (.status id)) (api.inspect id world) := by
  have performed : api.service.perform (.status id) world =
      some (.inspected id (api.service.status id world).1, _) := rfl
  refine ends_answer performed ?_
  cases (api.service.status id world).1 <;> rfl

theorem ends_run (api : Api State Seed) (request : Request) (route : Route) (method : Method)
    (world : World State Seed) :
    Ends api.service world (api.routed? request route method)
      (api.run request route method world) := by
  cases route with
  | drop =>
      cases method with
      | post => exact api.ends_create request world
      | _ => exact .idle _
  | secret segment =>
      cases method with
      | get | head => exact ends_withId segment api.read .retrieve fun id => api.ends_read id world
      | delete => exact ends_withId segment api.remove .delete fun id => api.ends_remove id world
      | _ => exact .idle _
  | status segment =>
      cases method with
      | get | head =>
          exact ends_withId segment api.inspect .status fun id => api.ends_inspect id world
      | _ => exact .idle _
  | settings => cases method <;> exact .idle _
  | health => cases method <;> exact .idle _

/-- A request that makes no call changes nothing; any other leaves the world as its call does, and
its response is the one to the answer. -/
theorem handle_ends (api : Api State Seed) (request : Request) (world : World State Seed) :
    ∃ response next, Ends api.service world (api.call? request) (response, next) ∧
      api.handle request world = (dress api.settings request.method response, next) := by
  unfold handle call?
  -- OPTIONS is answered ahead of the routes, none of which would make a call of it.
  by_cases asks : request.method = .options
  · have silent : ((api.route? request).bind fun route =>
        api.routed? request route request.method) = none := by
      rw [asks]
      cases api.route? request with
      | none => rfl
      | some route => cases route <;> rfl
    rw [silent]
    simp only [if_pos asks]
    exact ⟨_, world, .idle _, rfl⟩
  · simp only [if_neg asks]
    cases api.route? request with
    | none => exact ⟨_, world, .idle _, rfl⟩
    | some route => exact ⟨_, _, api.ends_run request route request.method world, rfl⟩

theorem handle_run {api : Api State Seed} {request : Request} {route : Route}
    {world : World State Seed} (asks : request.method ≠ .options)
    (found : api.route? request = some route) :
    api.handle request world =
      (dress api.settings request.method (api.run request route request.method world).1,
        (api.run request route request.method world).2) := by
  simp only [handle, found, if_neg asks]

theorem handle_config {api : Api State Seed} {request : Request}
    (reads : request.method = .get ∨ request.method = .head)
    (path : request.path = "/config".toList) (world : World State Seed) :
    api.handle request world =
      (dress api.settings request.method (json 200 api.advertised.encode), world) := by
  have found : api.route? request = some .settings := by
    rw [route?, path]
    cases api.settings.uploadDisabled <;> decide
  have asks : request.method ≠ .options := by
    rcases reads with method | method <;> simp [method]
  rw [handle_run asks found]
  rcases reads with method | method <;> rw [method] <;> rfl

section Requests

/-- A call, and the requests that make it. -/
inductive Asks (api : Api State Seed) (request : Request) : Call → Prop where
  | create {secret : Secret} : request.method = .post → api.route? request = some .drop →
      readSecret api.service.policy request = .ok secret → Asks api request (.create secret)
  | retrieve {id : SecretId} : request.method = .get ∨ request.method = .head →
      api.named? request = some id → Asks api request (.retrieve id)
  | delete {id : SecretId} : request.method = .delete → api.named? request = some id →
      Asks api request (.delete id)
  | status {id : SecretId} : request.method = .get ∨ request.method = .head →
      api.named? request = none → Asks api request (.status id)

variable {api : Api State Seed} {request : Request} {call : Call} {id : SecretId}
  {secret : Secret}

theorem named?_of_secret {segment : List Char}
    (found : api.route? request = some (.secret segment)) :
    api.named? request = idOf? segment := by
  rw [named?, found]

theorem named?_of_status {segment : List Char}
    (found : api.route? request = some (.status segment)) : api.named? request = none := by
  rw [named?, found]

theorem asks_of_routed? {route : Route} (found : api.route? request = some route)
    (routed : api.routed? request route request.method = some call) : Asks api request call := by
  cases route with
  | drop =>
      cases method : request.method with
      | post =>
          rw [method, routed?] at routed
          cases given : readSecret api.service.policy request with
          | error error =>
              rw [given] at routed
              cases routed
          | ok secret =>
              rw [given] at routed
              cases routed
              exact .create method found given
      | _ =>
          rw [method] at routed
          cases routed
  | secret segment =>
      cases method : request.method with
      | get | head =>
          rw [method] at routed
          obtain ⟨id, named, rfl⟩ := Option.map_eq_some_iff.mp routed
          exact .retrieve (by simp [method]) ((named?_of_secret found).trans named)
      | delete =>
          rw [method] at routed
          obtain ⟨id, named, rfl⟩ := Option.map_eq_some_iff.mp routed
          exact .delete method ((named?_of_secret found).trans named)
      | _ =>
          rw [method] at routed
          cases routed
  | status segment =>
      cases method : request.method with
      | get | head =>
          rw [method] at routed
          obtain ⟨id, named, rfl⟩ := Option.map_eq_some_iff.mp routed
          exact .status (by simp [method]) (named?_of_status found)
      | _ =>
          rw [method] at routed
          cases routed
  | settings => cases routed
  | health => cases routed

theorem asks_of_call? (asked : api.call? request = some call) : Asks api request call := by
  obtain ⟨route, found, routed⟩ := Option.bind_eq_some_iff.mp asked
  exact asks_of_routed? found routed

theorem route?_of_named? (named : api.named? request = some id) :
    ∃ segment, api.route? request = some (.secret segment) ∧ idOf? segment = some id := by
  unfold named? at named
  split at named
  · next segment found => exact ⟨segment, found, named⟩
  · cases named

theorem call?_of_reading (reads : request.method = .get ∨ request.method = .head)
    (named : api.named? request = some id) : api.call? request = some (.retrieve id) := by
  obtain ⟨segment, found, same⟩ := route?_of_named? named
  rcases reads with method | method
  · simp only [call?, found, Option.bind_some, routed?, method, same, Option.map_some]
  · simp only [call?, found, Option.bind_some, routed?, method, same, Option.map_some]

theorem call?_of_removal (method : request.method = .delete)
    (named : api.named? request = some id) : api.call? request = some (.delete id) := by
  obtain ⟨segment, found, same⟩ := route?_of_named? named
  simp only [call?, found, Option.bind_some, routed?, method, same, Option.map_some]

theorem call?_of_creation (method : request.method = .post)
    (found : api.route? request = some .drop)
    (given : readSecret api.service.policy request = .ok secret) :
    api.call? request = some (.create secret) := by
  simp only [call?, found, Option.bind_some, routed?, method, given]
  rfl

theorem handle_call (asked : api.call? request = some call) :
    ∃ event next, api.service.perform call world = some (event, next) ∧
      api.handle request world = (dress api.settings request.method (respond event), next) := by
  obtain ⟨response, next, ends, handled⟩ := api.handle_ends request world
  rw [asked] at ends
  obtain ⟨event, rfl, performed⟩ := ends_of_call ends
  exact ⟨event, next, performed, handled⟩

theorem handle_get (method : request.method = .get) (named : api.named? request = some id) :
    api.handle request world =
      (dress api.settings .get (respond (.retrieved id (api.service.retrieve id world).1)),
        (api.service.retrieve id world).2) := by
  obtain ⟨event, next, performed, handled⟩ := handle_call (call?_of_reading (.inl method) named)
  have same : (Event.retrieved id (api.service.retrieve id world).1,
      (api.service.retrieve id world).2) = (event, next) := Option.some.inj performed
  obtain ⟨answered, left⟩ := Prod.mk.inj same
  rw [handled, method, answered, left]

theorem handle_post (method : request.method = .post) (found : api.route? request = some .drop)
    (given : readSecret api.service.policy request = .ok secret) :
    api.handle request world =
      (dress api.settings .post (respond (.created secret (api.service.create secret world).1)),
        (api.service.create secret world).2) := by
  obtain ⟨event, next, performed, handled⟩ := handle_call (call?_of_creation method found given)
  have same : (Event.created secret (api.service.create secret world).1,
      (api.service.create secret world).2) = (event, next) := Option.some.inj performed
  obtain ⟨answered, left⟩ := Prod.mk.inj same
  rw [handled, method, answered, left]

end Requests

section Paths

def pathTo (id : SecretId) : List Char := "/secret/".toList ++ id.write

theorem find?_secret {uploads : Bool} {name segment : List Char}
    (family : Route.isFamily uploads name = true) (clean : '/' ∉ name) (filled : segment ≠ [])
    (whole : '/' ∉ segment) :
    Route.find? uploads ('/' :: (name ++ '/' :: segment)) = some (.secret segment) := by
  have split : Text.Blank.splitOn '/' ('/' :: (name ++ '/' :: segment)) =
      [[], name, segment] := by
    have items : ∀ item ∈ [name, segment], '/' ∉ item := by simp [clean, whole]
    simpa using Text.Blank.splitOn_path items
  simp [Route.find?, split, family, filled]

theorem find?_named {uploads : Bool} {name : List Char}
    (family : Route.isFamily uploads name = true) (clean : '/' ∉ name) (id : SecretId) :
    Route.find? uploads ('/' :: (name ++ '/' :: id.write)) = some (.secret id.write) :=
  find?_secret family clean id.write_ne_nil id.slash_not_mem_write

theorem find?_pathTo (uploads : Bool) (id : SecretId) :
    Route.find? uploads (pathTo id) = some (.secret id.write) := by
  have family : Route.isFamily uploads "secret".toList = true := by simp [Route.isFamily]
  exact find?_named family (by decide) id

theorem segmentText?_write (id : SecretId) : segmentText? id.write = some id.text := by
  have others : ∀ c ∈ id.write, Url.Percent.percentSign ∉ String.utf8EncodeChar c :=
    SecretId.forall_mem_write (by decide +kernel) (by decide +kernel) id
  have plain : Url.Percent.percentSign ∉ Text.Utf8.encode id.write := by
    intro member
    obtain ⟨c, among, here⟩ := List.mem_flatMap.mp member
    exact others c among here
  rw [segmentText?, ← Text.Utf8.encode, Url.Percent.decode_of_plain plain, Text.Utf8.text?,
    Text.Utf8.decode_encode]
  rfl

theorem idOf?_write (id : SecretId) : idOf? id.write = some id := by
  rw [idOf?, segmentText?_write, Option.bind_some, SecretId.ofText?_text]

theorem named?_of_path {api : Api State Seed} {request : Request} {id : SecretId}
    (path : request.path = pathTo id) : api.named? request = some id := by
  rw [named?, route?, path, find?_pathTo]
  exact idOf?_write id

end Paths

end Api

end Http

end DeadDrop
