import DeadDrop.Proofs.Http.Delivery
import DeadDrop.Proofs.Service.Custody

/-!
Asking for an id that is none. A segment is decoded before it is read as an id, and what comes out
need not be text. If it is text, and not an id, the answer is the one for an id with nothing behind
it, so nobody learns from it which ids could be there. If it is no text, the segment is refused
ahead of the question, with a status and a body of its own. The world stays as it was either way.
-/

namespace DeadDrop.Http.Api

open Service (World firstId)
open Store (Depot)

/-- The ways to ask about an id. -/
inductive Question where
  | read
  | remove
  | inspect
  deriving DecidableEq

namespace Question

def method : Question → Method
  | read | inspect => .get
  | remove => .delete

def route : Question → List Char → Route
  | read | remove => .secret
  | inspect => .status

def path (name segment : List Char) : Question → List Char
  | read | remove => '/' :: (name ++ '/' :: segment)
  | inspect => '/' :: (name ++ '/' :: (segment ++ '/' :: "status".toList))

def step {State Seed : Type} (api : Api State Seed) : Question → SecretId → Step State Seed
  | read => api.read
  | remove => api.remove
  | inspect => api.inspect

def request (question : Question) (name segment : List Char) (headers : List Header)
    (body : Bytes) : Request :=
  ⟨question.method, question.path name segment, headers, body⟩

end Question

/-- The segment does not stand for an id, as text or at all. -/
def Malformed (segment : List Char) : Prop :=
  ∀ text, segmentText? segment = some text → SecretId.isCanonical text = false

def missing : Response := (Error.service .notFound).response

variable {State Seed : Type} {api : Api State Seed} {name segment : List Char}

section Routing

theorem slash_not_mem_name {uploads : Bool} (family : Route.isFamily uploads name = true) :
    '/' ∉ name := by
  simp only [Route.isFamily, Bool.or_eq_true, Bool.and_eq_true, decide_eq_true_eq] at family
  rcases family with rfl | ⟨-, rfl⟩ <;> decide

theorem find?_status {uploads : Bool} (family : Route.isFamily uploads name = true)
    (filled : segment ≠ []) (whole : '/' ∉ segment) :
    Route.find? uploads (Question.inspect.path name segment) = some (.status segment) := by
  have split : Text.Blank.splitOn '/' (Question.inspect.path name segment) =
      [[], name, segment, "status".toList] := by
    have items : ∀ item ∈ [name, segment, "status".toList], '/' ∉ item := by
      simp [slash_not_mem_name family, whole]
    simpa [Question.path] using Text.Blank.splitOn_path items
  simp [Route.find?, split, family, filled]

theorem find?_question {uploads : Bool} (family : Route.isFamily uploads name = true)
    (filled : segment ≠ []) (whole : '/' ∉ segment) (question : Question) :
    Route.find? uploads (question.path name segment) = some (question.route segment) := by
  cases question with
  | read | remove => exact find?_secret family (slash_not_mem_name family) filled whole
  | inspect => exact find?_status family filled whole

theorem handle_question (family : Route.isFamily (!api.settings.uploadDisabled) name = true)
    (filled : segment ≠ []) (whole : '/' ∉ segment) (question : Question)
    (headers : List Header) (body : Bytes) (world : World State Seed) :
    api.handle (question.request name segment headers body) world =
      (dress api.settings question.method (withId segment (question.step api) world).1,
        (withId segment (question.step api) world).2) := by
  have found : api.route? (question.request name segment headers body) =
      some (question.route segment) := find?_question family filled whole question
  rw [handle, found]
  cases question <;> rfl

end Routing

section Nothing

theorem withId_write (id : SecretId) (step : SecretId → Step State Seed) :
    withId id.write step = step id := by
  rw [withId_eq, idOf?_write]

theorem withId_malformed (malformed : Malformed segment) (step : SecretId → Step State Seed) :
    withId segment step =
      always (if (segmentText? segment).isSome then missing else badSegment) := by
  have nameless : idOf? segment = none := by
    rw [idOf?, Option.bind_eq_none_iff]
    intro text decoded
    rw [← Option.not_isSome_iff_eq_none, SecretId.isSome_ofText?, malformed text decoded]
    exact Bool.false_ne_true
  rw [withId_eq, nameless]
  rfl

variable {depot : Depot} {drop : Api depot.State Seed} {world : World depot.State Seed}
  {id : SecretId}

/-- Whatever is asked, nothing is found, and nothing is changed by asking. -/
theorem step_of_absent (stored : drop.service.store = depot.store)
    (absent : world.state.find? id = none) (question : Question) :
    question.step drop id world = (missing, world) := by
  cases question with
  | read =>
      have asked : drop.read id world = _ := answer_eq _ _ world
      rw [Service.retrieve_of_absent stored absent] at asked
      exact asked
  | remove =>
      have asked : drop.remove id world = _ := answer_eq _ _ world
      rw [Service.delete_of_absent stored absent] at asked
      exact asked
  | inspect =>
      have asked : drop.inspect id world = _ := answer_eq _ _ world
      rw [Service.status_of_absent stored absent] at asked
      exact asked

theorem dress_status (settings : Settings) (method : Method) (response : Response) :
    (dress settings method response).status = response.status := rfl

theorem dress_body {method : Method} (sends : method ≠ .head) (settings : Settings)
    (response : Response) : (dress settings method response).body = response.body := if_neg sends

/-- A segment that is no id is answered like an id with nothing behind it exactly if it is text. -/
theorem malformed_like_missing_iff_text (depot : Depot) (drop : Api depot.State Seed)
    (world : World depot.State Seed) (stored : drop.service.store = depot.store)
    (family : Route.isFamily (!drop.settings.uploadDisabled) name = true)
    (filled : segment ≠ []) (whole : '/' ∉ segment) (malformed : Malformed segment)
    (absent : world.state.find? id = none) (question : Question) (headers : List Header)
    (body : Bytes) :
    let refused := drop.handle (question.request name segment headers body) world
    let missed := drop.handle (question.request name id.write headers body) world
    refused.2 = world ∧ missed.2 = world ∧ missed.1.status = 404 ∧
      missed.1.body = "\x7b\"message\":\"Secret not found\"\x7d" ∧
      (refused.1 = missed.1 ↔ (segmentText? segment).isSome = true) ∧
      (segmentText? segment = none →
        refused.1 = dress drop.settings question.method badSegment) := by
  intro refused missed
  have answered : refused = (dress drop.settings question.method
      (if (segmentText? segment).isSome then missing else badSegment), world) := by
    rw [show refused = _ from handle_question family filled whole question headers body world,
      withId_malformed malformed]
    rfl
  have nothing : missed = (dress drop.settings question.method missing, world) := by
    rw [show missed = _ from handle_question family id.write_ne_nil id.slash_not_mem_write
      question headers body world, withId_write, step_of_absent stored absent]
  have sends : question.method ≠ .head := by cases question <;> decide
  rw [answered, nothing]
  refine ⟨rfl, rfl, rfl, ?_, ?_, ?_⟩
  · rw [dress_body sends]
    decide +kernel
  · by_cases text : (segmentText? segment).isSome = true
    · rw [if_pos text]
      exact iff_of_true rfl text
    · rw [if_neg text]
      have apart : (dress drop.settings question.method badSegment).status ≠
          (dress drop.settings question.method missing).status := by
        rw [dress_status, dress_status]
        decide
      exact iff_of_false (fun same => apart (congrArg Response.status same)) text
  · intro undecoded
    rw [undecoded]
    rfl

/-- A word that is no id, asked for in an empty drop. -/
theorem word_is_missing :
    let word := "nope".toList
    (counted.handle (Question.read.request "secret".toList word [] []) opened).1 =
        (counted.handle (Question.read.request "secret".toList firstId.write [] []) opened).1 ∧
      (counted.handle (Question.read.request "secret".toList firstId.write [] []) opened).1.status =
        404 := by
  intro word
  have text : segmentText? word = some "nope" := by decide +kernel
  have malformed : Malformed word := by
    intro other decoded
    cases text.symm.trans decoded
    decide
  have family : Route.isFamily true "secret".toList = true := by decide
  have absent : opened.state.find? firstId = none := rfl
  obtain ⟨-, -, status, -, same, -⟩ := malformed_like_missing_iff_text .memory counted opened rfl
    family (by decide) (by decide) malformed absent .read [] []
  exact ⟨same.mpr (by rw [text]; rfl), status⟩

/-- One escaped octet that begins no character is told apart from what is missing. -/
theorem escaped_octet_is_told_apart :
    let octet := "%ff".toList
    Malformed octet ∧ octet ≠ [] ∧ '/' ∉ octet ∧ opened.state.find? firstId = none ∧
      (counted.handle (Question.read.request "secret".toList octet [] []) opened).1.status = 400 ∧
      (counted.handle (Question.read.request "secret".toList firstId.write [] []) opened).1.status =
        404 := by
  intro octet
  have undecoded : segmentText? octet = none := by decide +kernel
  have malformed : Malformed octet := by
    intro text decoded
    rw [undecoded] at decoded
    cases decoded
  exact ⟨malformed, by decide, by decide, rfl, by decide +kernel, by decide +kernel⟩

end Nothing

end DeadDrop.Http.Api
