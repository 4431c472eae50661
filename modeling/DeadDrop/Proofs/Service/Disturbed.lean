import DeadDrop.Proofs.Service.Interleaving
import DeadDrop.Store.Disturbed

/-!
Services over stores in bad company. Where another reader is always faster, every reading of a
one-time secret goes as if somebody deleted the secret between its look and its clearing. Where
nothing can be removed, nobody is given a one-time secret.
-/

namespace DeadDrop.Service

variable {State Seed : Type} {service : Service State Seed} {id : SecretId} {secret : Secret}

def racing (service : Service State Seed) : Service State Seed :=
  { service with store := service.store.raced }

theorem look_racing {world : World State Seed}
    (seen : (service.look id world).1 = .ok secret) :
    service.racing.look id world =
      (.ok secret, (service.delete id (service.look id world).2).2) := by
  simp only [look, ask_eq] at seen
  simp only [look, racing, Store.raced, delete, ask_eq]
  cases got : service.store.get world.clock id world.state with
  | mk answer left =>
      cases answer with
      | error cause => simp [got, Except.mapError] at seen
      | ok found => simpa [got, Except.mapError] using seen

/-- The secret is gone before the reader can clear it, and the reader has it all the same. -/
theorem retrieve_racing {scene : Scene State Seed} {reader : Nat}
    (idle : scene.phase reader = .idle) (seen : (service.look id scene.world).1 = .ok secret)
    (once : secret.oneTime = true) :
    ∃ moments last,
      replay service.stir [.look reader id, .call (.delete id) rfl, .clear reader] scene =
        some (moments, last) ∧
      last.world = (service.racing.retrieve id scene.world).2 ∧
      moments.filterMap Moment.returned? =
        [(reader, id, (service.racing.retrieve id scene.world).1)] := by
  have first := stir_look service id idle
  rw [seen] at first
  let between : Scene State Seed :=
    ⟨(service.delete id (service.look id scene.world).2).2,
      scene.withPhase reader (.ofLook id (.ok secret))⟩
  have holding : between.phase reader = .holding id secret := by
    simp [between, Scene.withPhase, Phase.ofLook, once]
  have read : service.racing.retrieve id scene.world =
      ((service.clear id between.world).1.map fun _ => secret,
        (service.clear id between.world).2) := by
    rw [retrieve_eq_look_clear, look_racing seen]
    simp only [once, if_true]
    rfl
  rw [read]
  refine ⟨_, _, replay_cons_eq_some.mpr ⟨_, _, _, first,
    replay_cons_eq_some.mpr ⟨_, between, _, rfl,
      replay_cons_eq_some.mpr ⟨_, _, _, stir_clear holding, rfl, rfl⟩, rfl⟩, rfl⟩, rfl, ?_⟩
  have silent : (Moment.looked reader id (.ok secret)).returned? = none := by
    simp [Moment.returned?, once]
  rw [List.filterMap_cons_none silent]
  rfl

theorem retrieved_of_perform {call : Call} {reply : Except Error Secret}
    {world next : World State Seed}
    (performed : service.perform call world = some (.retrieved id reply, next)) :
    service.retrieve id world = (reply, next) := by
  cases call with
  | retrieve other =>
      cases Option.some.inj performed
      rfl
  | wait nanoseconds =>
      obtain ⟨_, -, same⟩ := Option.map_eq_some_iff.mp performed
      cases same
  | _ => cases performed

/-- Whatever is asked of the service, in whatever order. -/
theorem plain_of_stuck {store : Store State} {reason : String}
    (stays : service.store = store.stuck reason) {calls : List Call} {events : List Event}
    {world last : World State Seed}
    (ran : replay service.perform calls world = some (events, last))
    (given : .retrieved id (.ok secret) ∈ events) : secret.oneTime = false := by
  induction calls generalizing world events with
  | nil =>
      cases ran
      cases given
  | cons call rest ih =>
      obtain ⟨event, next, later, moved, onward, rfl⟩ := replay_cons_eq_some.mp ran
      rcases List.mem_cons.mp given with rfl | member
      · apply eq_false_of_ne_true
        intro once
        obtain ⟨middle, existed, -, removed⟩ :=
          deleted_of_retrieved (retrieved_of_perform moved) once
        rw [stays] at removed
        cases removed
      · exact ih onward member

end DeadDrop.Service
