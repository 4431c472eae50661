import DeadDrop.Proofs.Http.Delivery
import DeadDrop.Proofs.Store.Likeness

/-!
What a client learns of the store behind a server. Over stores that are alike the responses are the
same to the last header, since a failure is told by what was asked for, and not by what the store
had to say of it.
-/

namespace DeadDrop

open Store (Alike Report Watched watched veiled)

variable {State Other Seed α β : Type}

theorem mapError_eq_iff {ε φ : Type} {change : ε → φ} {left right : Except ε α} :
    left.mapError change = right.mapError change ↔
      (∃ value, left = .ok value ∧ right = .ok value) ∨
        ∃ error other, left = .error error ∧ right = .error other ∧ change error = change other := by
  cases left <;> cases right <;> simp [Except.mapError, eq_comm]

section Services

namespace Service

def Error.blur : Error → Error
  | store cause => store cause.blur
  | clear cause => clear cause.blur
  | retrieve cause => retrieve cause.blur
  | delete cause => delete cause.blur
  | error => error

theorem blur_ofRead (cause : Store.Error) : (Error.ofRead cause).blur = Error.ofRead cause.blur := by
  cases cause <;> rfl

def upon (service : Service State Seed) (store : Store Other) : Service Other Seed :=
  ⟨store, service.ids, service.policy⟩

structure Twins (left : Store State) (right : Store Other) (world : World State Seed)
    (twin : World Other Seed) : Prop where
  clock : twin.clock = world.clock
  seed : twin.seed = world.seed
  states : Alike left right world.state twin.state

/-- Replies that differ at most in what the store said of its failures. -/
structure Matches (left : Store State) (right : Store Other) (reply : Reply State Seed α)
    (match_ : Reply Other Seed α) : Prop where
  same : reply.1.mapError Error.blur = match_.1.mapError Error.blur
  worlds : Twins left right reply.2 match_.2

variable {left : Store State} {right : Store Other} {world : World State Seed}
  {twin : World Other Seed}

theorem Matches.map {reply : Reply State Seed α} {match_ : Reply Other Seed α}
    (matching : Matches left right reply match_) (change : α → β) :
    Matches left right (reply.1.map change, reply.2) (match_.1.map change, match_.2) := by
  refine ⟨?_, matching.worlds⟩
  dsimp only
  rcases mapError_eq_iff.mp matching.same with ⟨value, here, there⟩ | ⟨error, other, here, there, same⟩
  · rw [here, there]
  · rw [here, there, mapError_eq_iff]
    exact .inr ⟨error, other, rfl, rfl, same⟩

theorem matches_ask {wrap : Store.Error → Error} {call : Clock → State → Store.Answer State α}
    {call' : Clock → Other → Store.Answer Other α}
    (soft : ∀ cause, (wrap cause).blur = wrap cause.blur) (twins : Twins left right world twin)
    (alike : (call world.clock world.state).1.mapError Store.Error.blur =
        (call' world.clock twin.state).1.mapError Store.Error.blur ∧
      Alike left right (call world.clock world.state).2 (call' world.clock twin.state).2) :
    Matches left right (ask wrap call world) (ask wrap call' twin) := by
  obtain ⟨_, state, _⟩ := world
  obtain ⟨clock, other, seed⟩ := twin
  obtain ⟨rfl, rfl, -⟩ := twins
  obtain ⟨same, onward⟩ := alike
  refine ⟨?_, rfl, rfl, onward⟩
  dsimp only [ask]
  rcases mapError_eq_iff.mp same with ⟨value, here, there⟩ | ⟨error, other, here, there, same⟩
  · rw [here, there]
  · rw [here, there, mapError_eq_iff]
    exact .inr ⟨wrap error, wrap other, rfl, rfl, by rw [soft, soft, same]⟩

variable (service : Service State Seed)

theorem matches_create (twins : Twins service.store right world twin) (secret : Secret) :
    Matches service.store right (service.create secret world)
      ((service.upon right).create secret twin) := by
  obtain ⟨_, state, _⟩ := world
  obtain ⟨clock, other, seed⟩ := twin
  obtain ⟨rfl, rfl, alike⟩ := twins
  cases checked : service.policy.check secret with
  | error violation =>
      have checked' : (service.upon right).policy.check secret = .error violation := checked
      rw [create_refused checked, create_refused checked']
      exact ⟨rfl, rfl, rfl, alike⟩
  | ok admitted =>
      have checked' : (service.upon right).policy.check secret = .ok admitted := checked
      simp only [create, checked, checked']
      have named : Twins service.store right (service.newId ⟨clock, state, seed⟩).2
          ((service.upon right).newId ⟨clock, other, seed⟩).2 := ⟨rfl, rfl, alike⟩
      exact (matches_ask (fun _ => rfl) named (alike.put clock _ secret)).map _

theorem matches_retrieve (twins : Twins service.store right world twin) (id : SecretId) :
    Matches service.store right (service.retrieve id world)
      ((service.upon right).retrieve id twin) := by
  have first : Matches service.store right
      (ask .ofRead (fun clock => service.store.get clock id) world)
      (ask .ofRead (fun clock => right.get clock id) twin) :=
    matches_ask blur_ofRead twins (twins.states.get world.clock id)
  have store : (service.upon right).store = right := rfl
  rw [retrieve, retrieve, store]
  generalize ask .ofRead (fun clock => service.store.get clock id) world = reply at first
  generalize ask .ofRead (fun clock => right.get clock id) twin = match_ at first
  obtain ⟨answer, next⟩ := reply
  obtain ⟨answer', next'⟩ := match_
  obtain ⟨same, onward⟩ := first
  rcases mapError_eq_iff.mp same with ⟨secret, rfl, rfl⟩ | ⟨error, other, rfl, rfl, blurred⟩
  · dsimp only
    by_cases once : secret.oneTime
    · rw [if_pos once, if_pos once]
      exact (matches_ask (fun _ => rfl) onward (onward.states.delete next.clock id)).map _
    · rw [if_neg once, if_neg once]
      exact ⟨rfl, onward⟩
  · exact ⟨mapError_eq_iff.mpr (.inr ⟨error, other, rfl, rfl, blurred⟩), onward⟩

theorem matches_delete (twins : Twins service.store right world twin) (id : SecretId) :
    Matches service.store right (service.delete id world)
      ((service.upon right).delete id twin) :=
  matches_ask (fun _ => rfl) twins (twins.states.delete world.clock id)

theorem matches_status (twins : Twins service.store right world twin) (id : SecretId) :
    Matches service.store right (service.status id world)
      ((service.upon right).status id twin) :=
  matches_ask blur_ofRead twins (twins.states.status world.clock id)

end Service

end Services

section Responses

namespace Http

open Service (Twins Matches World)

theorem Error.response_of_blur {error other : Service.Error} (same : error.blur = other.blur) :
    (Error.ofService error).response = (Error.ofService other).response := by
  have soft (error : Service.Error) :
      (Error.ofService error.blur).response = (Error.ofService error).response := by
    cases error with
    | store cause | clear cause | retrieve cause | delete cause => cases cause <;> rfl
    | refused refusal | notFound | misconfigured fault => rfl
  rw [← soft error, same, soft]

namespace Api

def upon (api : Api State Seed) (store : Store Other) : Api Other Seed :=
  ⟨api.service.upon store, api.settings⟩

structure Agree (left : Store State) (right : Store Other)
    (served : Response × World State Seed) (other : Response × World Other Seed) : Prop where
  response : served.1 = other.1
  worlds : Twins left right served.2 other.2

variable {left : Store State} {right : Store Other} {world : World State Seed}
  {twin : World Other Seed}

theorem agree_answer {good : α → Response} {call : World State Seed → Service.Reply State Seed α}
    {call' : World Other Seed → Service.Reply Other Seed α}
    (matching : Matches left right (call world) (call' twin)) :
    Agree left right (answer good call world) (answer good call' twin) := by
  obtain ⟨same, onward⟩ := matching
  rw [answer_eq, answer_eq]
  refine ⟨?_, onward⟩
  dsimp only
  rcases mapError_eq_iff.mp same with ⟨value, here, there⟩ | ⟨error, other, here, there, same⟩
  · rw [here, there]
  · rw [here, there]
    exact Error.response_of_blur same

theorem agree_withId (segment : List Char) {step : SecretId → Step State Seed}
    {step' : SecretId → Step Other Seed} (twins : Twins left right world twin)
    (agree : ∀ id, Agree left right (step id world) (step' id twin)) :
    Agree left right (withId segment step world) (withId segment step' twin) := by
  rw [withId_eq, withId_eq]
  cases idOf? segment with
  | none => exact ⟨rfl, twins⟩
  | some id => exact agree id

variable (api : Api State Seed)

theorem agree_run (twins : Twins api.service.store right world twin) (request : Request)
    (route : Route) (method : Method) :
    Agree api.service.store right (api.run request route method world)
      ((api.upon right).run request route method twin) := by
  have same (response : Response) :
      Agree api.service.store right (response, world) (response, twin) := ⟨rfl, twins⟩
  have reading (id : SecretId) :
      Agree api.service.store right (api.read id world) ((api.upon right).read id twin) :=
    agree_answer (api.service.matches_retrieve twins id)
  have inspecting (id : SecretId) :
      Agree api.service.store right (api.inspect id world) ((api.upon right).inspect id twin) :=
    agree_answer (api.service.matches_status twins id)
  have removing (id : SecretId) :
      Agree api.service.store right (api.remove id world) ((api.upon right).remove id twin) :=
    agree_answer (api.service.matches_delete twins id)
  have creating :
      Agree api.service.store right (api.create request world)
        ((api.upon right).create request twin) := by
    have policy : (api.upon right).service.policy = api.service.policy := rfl
    rw [create, create, policy]
    cases readSecret api.service.policy request with
    | error error => exact same _
    | ok secret => exact agree_answer (api.service.matches_create twins secret)
  cases route with
  | drop =>
      cases method with
      | post => exact creating
      | _ => exact same _
  | secret segment =>
      cases method with
      | get | head => exact agree_withId segment twins reading
      | delete => exact agree_withId segment twins removing
      | _ => exact same _
  | status segment =>
      cases method with
      | get | head => exact agree_withId segment twins inspecting
      | _ => exact same _
  | settings => cases method <;> exact same _
  | health => cases method <;> exact same _

/-- One request cannot tell the stores apart, and leaves them as they were: alike. -/
theorem agree_handle (twins : Twins api.service.store right world twin) (request : Request) :
    Agree api.service.store right (api.handle request world)
      ((api.upon right).handle request twin) := by
  have routes : (api.upon right).route? request = api.route? request := rfl
  have settings : (api.upon right).settings = api.settings := rfl
  unfold handle
  rw [routes, settings]
  by_cases asks : request.method = .options
  · simp only [if_pos asks]
    exact ⟨rfl, twins⟩
  · simp only [if_neg asks]
    cases api.route? request with
    | none => exact ⟨rfl, twins⟩
    | some route =>
        obtain ⟨response, onward⟩ := api.agree_run twins request route request.method
        exact ⟨congrArg (dress api.settings request.method) response, onward⟩

theorem serve_together (input : Input) (twins : Twins api.service.store right world twin) :
    Lockstep (Twins api.service.store right) (fun _ => true) (api.serve input world)
      ((api.upon right).serve input twin) := by
  cases input with
  | request request =>
      obtain ⟨response, onward⟩ := api.agree_handle twins request
      simp only [serve, response]
      exact .moved onward (Or.inl rfl)
  | wait nanoseconds =>
      obtain ⟨_, state, _⟩ := world
      obtain ⟨clock, other, seed⟩ := twin
      obtain ⟨rfl, rfl, alike⟩ := twins
      simp only [serve, World.advance?]
      cases clock.advance? nanoseconds with
      | none => exact .stopped
      | some later => exact .moved ⟨rfl, rfl, alike⟩ (Or.inl rfl)

/-- Nor can any number of requests, whatever time passes between them. -/
theorem replay_upon (twins : Twins api.service.store right world twin) (inputs : List Input) :
    (replay api.serve inputs world).map Prod.fst =
      (replay (api.upon right).serve inputs twin).map Prod.fst := by
  have same := outcome_lockstep (fun input _ _ => api.serve_together input) inputs world twin twins
  simpa [outcome] using same

end Api

end Http

end Responses

end DeadDrop
