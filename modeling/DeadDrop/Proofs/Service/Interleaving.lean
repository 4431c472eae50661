import DeadDrop.Proofs.Service.Delivery

/-!
Many clients of one service at once. Every operation of the store is one step, so reading a
one-time secret takes two: a reader looks, and later clears what it saw. In between anything may
happen, another reader may look and get the same secret. That is all that can go wrong: whoever
gets a one-time secret looked before it was first removed, whoever looks after somebody got it
finds nothing, and only one removal ever finds something.
-/

namespace DeadDrop

open Store (Ledger Book Sighting Keeps Memory memory memory_keeps)

namespace Service

variable {State Seed : Type}

def look (service : Service State Seed) (id : SecretId) (world : World State Seed) :
    Reply State Seed Secret :=
  ask .ofRead (fun clock => service.store.get clock id) world

def clear (service : Service State Seed) (id : SecretId) (world : World State Seed) :
    Reply State Seed Bool :=
  ask .clear (fun clock => service.store.delete clock id) world

def Call.isSingle : Call → Bool
  | .retrieve _ => false
  | _ => true

/-- One step of one client, or of the clock. Every reader reads once. -/
inductive Move where
  | look (reader : Nat) (id : SecretId)
  | clear (reader : Nat)
  | call (call : Call) (single : call.isSingle = true)

inductive Moment where
  | looked (reader : Nat) (id : SecretId) (reply : Except Error Secret)
  | cleared (reader : Nat) (id : SecretId) (secret : Secret) (reply : Except Error Bool)
  | called (event : Event)
  deriving DecidableEq

namespace Moment

def sightings : Moment → List Sighting
  | looked _ id (.ok secret) => [.seen id secret]
  | looked _ id (.error .notFound) => [.missed id]
  | looked _ _ (.error _) => []
  | cleared _ id _ (.ok existed) => [.removed id existed]
  | cleared _ _ _ (.error _) => []
  | called event => event.sightings

def event? : Moment → Option Event
  | called event => some event
  | _ => none

def isBy (reader : Nat) : Moment → Bool
  | looked other _ _ => other = reader
  | cleared other _ _ _ => other = reader
  | called _ => false

/-- A reader that returns, the id it read and its answer. -/
def returned? : Moment → Option (Nat × SecretId × Except Error Secret)
  | looked reader id (.ok secret) =>
      if secret.oneTime then none else some (reader, id, .ok secret)
  | looked reader id (.error error) => some (reader, id, .error error)
  | cleared reader id secret reply => some (reader, id, reply.map fun _ => secret)
  | called _ => none

def deletes (id : SecretId) : Moment → Bool
  | cleared _ other _ _ => other = id
  | called (.deleted other _) => other = id
  | _ => false

def finds (id : SecretId) : Moment → Bool
  | cleared _ other _ (.ok existed) => other = id && existed
  | called (.deleted other (.ok existed)) => other = id && existed
  | _ => false

def isSound : Moment → Bool
  | looked _ _ (.error error) => error = .notFound
  | cleared _ _ _ (.error _) => false
  | called (.deleted _ (.error _)) => false
  | _ => true

theorem storedIds_sightings (moment : Moment) :
    moment.sightings.filterMap Sighting.storedId? =
      (moment.event?.bind Event.createdId?).toList := by
  cases moment with
  | looked reader id reply =>
      cases reply with
      | ok secret => rfl
      | error error => cases error <;> rfl
  | cleared reader id secret reply => cases reply <;> rfl
  | called event => exact event.storedIds_sightings

theorem stored_mem_sightings {moment : Moment} {id : SecretId} {secret : Secret} :
    .stored id secret ∈ moment.sightings ↔ moment = called (.created secret (.ok id)) := by
  cases moment with
  | looked reader other reply =>
      cases reply with
      | ok secret => simp [sightings]
      | error error => cases error <;> simp [sightings]
  | cleared reader other secret reply => cases reply <;> simp [sightings]
  | called event => simp [sightings, Event.stored_mem_sightings]

theorem isBy_of_returned {moment : Moment} {reader : Nat} {id : SecretId}
    {answer : Except Error Secret} (returned : moment.returned? = some (reader, id, answer)) :
    moment.isBy reader = true := by
  unfold returned? at returned
  split at returned
  · split at returned
    · cases returned
    · cases returned
      simp [isBy]
  · cases returned
    simp [isBy]
  · cases returned
    simp [isBy]
  · cases returned

theorem returned_ok {moment : Moment} {reader : Nat} {id : SecretId} {secret : Secret}
    (returned : moment.returned? = some (reader, id, .ok secret)) :
    moment = looked reader id (.ok secret) ∧ secret.oneTime = false ∨
      ∃ existed, moment = cleared reader id secret (.ok existed) := by
  unfold returned? at returned
  split at returned
  · split at returned
    · cases returned
    · next plain =>
        cases returned
        exact Or.inl ⟨rfl, by simpa using plain⟩
  · cases returned
  · next other seen held reply =>
      cases reply with
      | error error => cases returned
      | ok existed =>
          cases returned
          exact Or.inr ⟨existed, rfl⟩
  · cases returned

theorem removed_of_deletes {moment : Moment} {id : SecretId} (sound : moment.isSound = true)
    (deletes : moment.deletes id = true) :
    ∃ existed, moment.sightings = [.removed id existed] ∧ moment.finds id = existed := by
  cases moment with
  | looked reader other reply => cases deletes
  | cleared reader other secret reply =>
      have same : other = id := by simpa [Moment.deletes] using deletes
      subst same
      cases reply with
      | error error => cases sound
      | ok existed => exact ⟨existed, rfl, by simp [Moment.finds]⟩
  | called event =>
      cases event with
      | deleted other reply =>
          have same : other = id := by simpa [Moment.deletes] using deletes
          subst same
          cases reply with
          | error error => cases sound
          | ok existed => exact ⟨existed, rfl, by simp [Moment.finds]⟩
      | _ => cases deletes

theorem deletes_of_finds {moment : Moment} {id : SecretId} (found : moment.finds id = true) :
    moment.deletes id = true := by
  unfold finds at found
  split at found
  · simp only [Bool.and_eq_true] at found
    exact found.1
  · simp only [Bool.and_eq_true] at found
    exact found.1
  · cases found

end Moment

/-- How far a reader has come. -/
inductive Phase where
  | idle
  | holding (id : SecretId) (secret : Secret)
  | done
  deriving DecidableEq

def Phase.ofLook (id : SecretId) : Except Error Secret → Phase
  | .ok secret => if secret.oneTime then holding id secret else done
  | .error _ => done

structure Scene (State Seed : Type) where
  world : World State Seed
  phase : Nat → Phase

namespace Scene

def withPhase (scene : Scene State Seed) (reader : Nat) (phase : Phase) : Nat → Phase :=
  fun other => if other = reader then phase else scene.phase other

end Scene

/-- Readers look once and clear what they hold; all other calls are steps of their own. -/
def stir (service : Service State Seed) :
    Move → Scene State Seed → Option (Moment × Scene State Seed)
  | .look reader id, scene =>
      match scene.phase reader with
      | .idle =>
          let (reply, world) := service.look id scene.world
          some (.looked reader id reply, ⟨world, scene.withPhase reader (.ofLook id reply)⟩)
      | _ => none
  | .clear reader, scene =>
      match scene.phase reader with
      | .holding id secret =>
          let (reply, world) := service.clear id scene.world
          some (.cleared reader id secret reply, ⟨world, scene.withPhase reader .done⟩)
      | _ => none
  | .call call _, scene =>
      (service.perform call scene.world).map fun (event, world) =>
        (.called event, { scene with world := world })

section Steps

variable {service : Service State Seed} {scene : Scene State Seed} {reader : Nat} {id : SecretId}
  {secret : Secret}

theorem stir_look (service : Service State Seed) (id : SecretId)
    (idle : scene.phase reader = .idle) :
    service.stir (.look reader id) scene =
      some (.looked reader id (service.look id scene.world).1,
        ⟨(service.look id scene.world).2,
          scene.withPhase reader (.ofLook id (service.look id scene.world).1)⟩) := by
  simp only [stir, idle]

theorem stir_clear (holding : scene.phase reader = .holding id secret) :
    service.stir (.clear reader) scene =
      some (.cleared reader id secret (service.clear id scene.world).1,
        ⟨(service.clear id scene.world).2, scene.withPhase reader .done⟩) := by
  simp only [stir, holding]

theorem retrieve_eq_look_clear (service : Service State Seed) (id : SecretId)
    (world : World State Seed) :
    service.retrieve id world =
      match service.look id world with
      | (.error error, next) => (.error error, next)
      | (.ok secret, next) =>
          if secret.oneTime then
            let (answer, last) := service.clear id next
            (answer.map fun _ => secret, last)
          else (.ok secret, next) := rfl

/-- A reader that nobody disturbs does what a reading does. -/
theorem undisturbed_eq_retrieve (idle : scene.phase reader = .idle) :
    ∃ moves moments last, replay service.stir moves scene = some (moments, last) ∧
      last.world = (service.retrieve id scene.world).2 ∧
      moments.filterMap Moment.returned? =
        [(reader, id, (service.retrieve id scene.world).1)] := by
  have first := stir_look service id idle
  rw [retrieve_eq_look_clear]
  cases looked : service.look id scene.world with
  | mk reply world =>
      rw [looked] at first
      have alone : replay service.stir [.look reader id] scene = _ :=
        replay_cons_eq_some.mpr ⟨_, _, _, first, rfl, rfl⟩
      cases reply with
      | error error => exact ⟨_, _, _, alone, rfl, rfl⟩
      | ok secret =>
          by_cases once : secret.oneTime = true
          · let seen : Scene State Seed :=
              ⟨world, scene.withPhase reader (.ofLook id (.ok secret))⟩
            have holding : seen.phase reader = .holding id secret := by
              simp [seen, Scene.withPhase, Phase.ofLook, once]
            have both : replay service.stir [.look reader id, .clear reader] scene = _ :=
              replay_cons_eq_some.mpr ⟨_, _, _, first,
                replay_cons_eq_some.mpr ⟨_, _, _, stir_clear holding, rfl, rfl⟩, rfl⟩
            refine ⟨_, _, _, both, ?_, ?_⟩
            · simp [once]
            · simp [Moment.returned?, once]
          · refine ⟨_, _, _, alone, ?_, ?_⟩
            · simp [once]
            · simp [Moment.returned?, once]

end Steps

inductive Trace (reader : Nat) : Phase → List Moment → Prop where
  | idle : Trace reader .idle []
  | holding {id : SecretId} {secret : Secret} : secret.oneTime = true →
      Trace reader (.holding id secret) [.looked reader id (.ok secret)]
  | looked {id : SecretId} {reply : Except Error Secret} : Phase.ofLook id reply = .done →
      Trace reader .done [.looked reader id reply]
  | cleared {id : SecretId} {secret : Secret} {reply : Except Error Bool} :
      secret.oneTime = true →
      Trace reader .done [.looked reader id (.ok secret), .cleared reader id secret reply]

theorem trace_ofLook (reader : Nat) (id : SecretId) (reply : Except Error Secret) :
    Trace reader (.ofLook id reply) [.looked reader id reply] := by
  cases reply with
  | error error => exact .looked rfl
  | ok secret =>
      by_cases once : secret.oneTime = true
      · have phase : Phase.ofLook id (.ok secret) = .holding id secret := by
          simp [Phase.ofLook, once]
        rw [phase]
        exact .holding once
      · have phase : Phase.ofLook id (.ok secret) = .done := by simp [Phase.ofLook, once]
        rw [phase]
        exact .looked phase

def tales (moments : List Moment) : List Sighting := moments.flatMap Moment.sightings

/-- What holds of the past and the scene it has led to: the book of the past explains it and is the
book of the world, nothing has failed, and every reader has come as far as its steps say. -/
structure Witnessed (now : Nat) (past : List Moment) (scene : Scene Memory Seed) : Prop where
  explained : (Book.opened now).Explains (tales past)
  tracks : Tracks Memory.Mirrors scene.world ((Book.opened now).after (tales past))
  sound : ∀ moment ∈ past, moment.isSound = true
  traces : ∀ reader, Trace reader (scene.phase reader) (past.filter (Moment.isBy reader))

section Invariant

variable {service : Service Memory Seed} {world next : World Memory Seed}
  {scene : Scene Memory Seed} {book : Book} {now : Nat} {past : List Moment}

theorem look_told (keeps : service.store = memory) (reader : Nat) (id : SecretId)
    (tracks : Tracks Memory.Mirrors world book) :
    let moment := Moment.looked reader id (service.look id world).1
    Told Memory.Mirrors book moment.sightings (service.look id world).2 ∧
      moment.isSound = true := by
  obtain ⟨now, ledger⟩ := book
  obtain ⟨rfl, shown⟩ := tracks
  obtain ⟨left, looked, kept⟩ := answered_of_settles (look_settles (keeps ▸ memory_keeps) id shown)
  rw [look, looked]
  unfold Ledger.reading
  cases live : ledger.live world.clock.elapsed id with
  | none => exact ⟨⟨⟨live, trivial⟩, rfl, kept⟩, rfl⟩
  | some deposit =>
      have borne : (Book.mk world.clock.elapsed ledger).Bears (.seen id deposit.secret) :=
        congrArg (Option.map _) live
      exact ⟨⟨⟨borne, trivial⟩, rfl, kept⟩, rfl⟩

theorem clear_told (keeps : service.store = memory) (reader : Nat) (id : SecretId)
    (secret : Secret) (tracks : Tracks Memory.Mirrors world book) :
    let moment := Moment.cleared reader id secret (service.clear id world).1
    Told Memory.Mirrors book moment.sightings (service.clear id world).2 ∧
      moment.isSound = true := by
  obtain ⟨now, ledger⟩ := book
  obtain ⟨rfl, shown⟩ := tracks
  obtain ⟨left, removed, kept⟩ := answered_of_settles
    (remove_settles (keeps ▸ memory_keeps) id .clear (fun _ => rfl) world shown)
  rw [clear, removed]
  exact ⟨⟨⟨rfl, trivial⟩, rfl, kept⟩, rfl⟩

theorem perform_sound (keeps : service.store = memory) {call : Call} {event : Event}
    (tracks : Tracks Memory.Mirrors world book)
    (performed : service.perform call world = some (event, next)) :
    (Moment.called event).isSound = true := by
  cases event with
  | deleted id reply =>
      cases call with
      | delete other =>
          obtain ⟨now, ledger⟩ := book
          obtain ⟨rfl, shown⟩ := tracks
          obtain ⟨left, deleted, -⟩ := answered_of_settles
            (delete_settles (keeps ▸ memory_keeps) other shown)
          simp only [perform, deleted] at performed
          cases performed
          rfl
      | wait nanoseconds => simp [perform] at performed
      | _ => cases performed
  | _ => rfl

theorem Witnessed.extend {moment : Moment} {last : Scene Memory Seed}
    (witnessed : Witnessed now past scene)
    (told : Told Memory.Mirrors ((Book.opened now).after (tales past)) moment.sightings last.world)
    (sound : moment.isSound = true)
    (traces : ∀ reader, Trace reader (last.phase reader)
      (past.filter (Moment.isBy reader) ++ [moment].filter (Moment.isBy reader))) :
    Witnessed now (past ++ [moment]) last := by
  have both : tales (past ++ [moment]) = tales past ++ moment.sightings := by simp [tales]
  have whole : Told Memory.Mirrors (.opened now) (tales past ++ moment.sightings) last.world :=
    Told.append ⟨witnessed.explained, witnessed.tracks⟩ told
  rw [← both] at whole
  refine ⟨whole.1, whole.2, ?_, ?_⟩
  · intro other member
    rcases List.mem_append.mp member with early | now
    · exact witnessed.sound other early
    · rw [List.mem_singleton.mp now]
      exact sound
  · intro reader
    rw [List.filter_append]
    exact traces reader

-- The step of one reader adds to its own trace and to no other.
theorem traces_withPhase {reader : Nat} {moment : Moment} {phase : Phase}
    (witnessed : Witnessed now past scene) (own : ∀ other, moment.isBy other = (reader = other))
    (step : Trace reader phase (past.filter (Moment.isBy reader) ++ [moment])) (other : Nat) :
    Trace other (scene.withPhase reader phase other)
      (past.filter (Moment.isBy other) ++ [moment].filter (Moment.isBy other)) := by
  by_cases same : other = reader
  · subst same
    have mine : [moment].filter (Moment.isBy other) = [moment] := by simp [own]
    rw [mine, Scene.withPhase, if_pos rfl]
    exact step
  · have none : [moment].filter (Moment.isBy other) = [] := by simp [own, Ne.symm same]
    rw [none, List.append_nil, Scene.withPhase, if_neg same]
    exact witnessed.traces other

theorem stir_kept (keeps : service.store = memory) {move : Move} {moment : Moment}
    {last : Scene Memory Seed} (witnessed : Witnessed now past scene)
    (stirred : service.stir move scene = some (moment, last)) :
    Witnessed now (past ++ [moment]) last := by
  cases move with
  | look reader id =>
      have trace := witnessed.traces reader
      cases phase : scene.phase reader with
      | idle =>
          rw [stir_look service id phase] at stirred
          cases stirred
          obtain ⟨told, sound⟩ := look_told keeps reader id witnessed.tracks
          refine witnessed.extend told sound
            (traces_withPhase witnessed (fun other => by simp [Moment.isBy]) ?_)
          rw [phase] at trace
          generalize past.filter (Moment.isBy reader) = steps at trace
          cases trace
          exact trace_ofLook reader id _
      | holding other secret => simp [stir, phase] at stirred
      | done => simp [stir, phase] at stirred
  | clear reader =>
      have trace := witnessed.traces reader
      cases phase : scene.phase reader with
      | idle => simp [stir, phase] at stirred
      | holding id secret =>
          rw [stir_clear phase] at stirred
          cases stirred
          obtain ⟨told, sound⟩ := clear_told keeps reader id secret witnessed.tracks
          refine witnessed.extend told sound
            (traces_withPhase witnessed (fun other => by simp [Moment.isBy]) ?_)
          rw [phase] at trace
          generalize past.filter (Moment.isBy reader) = steps at trace
          cases trace with
          | holding once => exact .cleared once
      | done => simp [stir, phase] at stirred
  | call call single =>
      obtain ⟨⟨event, next⟩, performed, same⟩ := Option.map_eq_some_iff.mp stirred
      cases same
      refine witnessed.extend (perform_told (keeps ▸ memory_keeps) witnessed.tracks performed)
        (perform_sound keeps witnessed.tracks performed) ?_
      intro reader
      simpa [Moment.isBy] using witnessed.traces reader

theorem witnessed_of_replay (keeps : service.store = memory) {moves : List Move}
    {moments : List Moment} {last : Scene Memory Seed} (clock : Clock) (seed : Seed)
    (ran : replay service.stir moves ⟨⟨clock, Memory.empty, seed⟩, fun _ => .idle⟩ =
      some (moments, last)) :
    Witnessed clock.elapsed moments last := by
  have start : Witnessed clock.elapsed []
      (⟨⟨clock, Memory.empty, seed⟩, fun _ => .idle⟩ : Scene Memory Seed) :=
    ⟨trivial, ⟨rfl, .empty _⟩, (fun _ member => nomatch member), fun _ => .idle⟩
  exact replay_invariant (fun _ _ _ _ _ witnessed stirred => stir_kept keeps witnessed stirred)
    moves [] _ start ran

end Invariant

section Past

variable {scene : Scene Memory Seed} {now reader : Nat} {id : SecretId}
  {secret : Secret} {moment : Moment} {moments early late : List Moment}

def FreshMoments (moments : List Moment) : Prop := FreshIds (moments.filterMap Moment.event?)

theorem FreshMoments.tales (fresh : FreshMoments moments) : Sighting.Fresh (tales moments) := by
  apply Sighting.fresh_flatMap Moment.storedIds_sightings
  rw [← List.filterMap_filterMap]
  exact fresh

theorem stored_mem_tales : .stored id secret ∈ tales moments ↔
    .called (.created secret (.ok id)) ∈ moments := by
  simp [tales, Moment.stored_mem_sightings]

theorem tales_append (early late : List Moment) :
    tales (early ++ late) = tales early ++ tales late :=
  List.flatMap_append

theorem created_of_looked
    (witnessed : Witnessed now (early ++ .looked reader id (.ok secret) :: late) scene) :
    .called (.created secret (.ok id)) ∈ early := by
  have explained := witnessed.explained
  rw [tales_append] at explained
  exact stored_mem_tales.mp (Book.stored_of_seen explained)

theorem looked_before_cleared {reply : Except Error Bool}
    (witnessed : Witnessed now (early ++ .cleared reader id secret reply :: late) scene) :
    .looked reader id (.ok secret) ∈ early := by
  have trace := witnessed.traces reader
  rw [List.filter_append, List.filter_cons, if_pos (by simp [Moment.isBy])] at trace
  have sub : ∀ step ∈ early.filter (Moment.isBy reader), step ∈ early :=
    fun _ member => List.mem_of_mem_filter member
  generalize early.filter (Moment.isBy reader) = steps at trace sub
  generalize late.filter (Moment.isBy reader) = others at trace
  generalize scene.phase reader = phase at trace
  -- Of the four shapes of a trace only one has a clearing, and there the look stands before it.
  match steps with
  | [] => cases trace
  | [step] =>
      cases trace with
      | cleared once => exact sub _ List.mem_cons_self
  | [_, _] => cases trace
  | _ :: _ :: _ :: _ => cases trace

theorem returned_of_missed {error : Error} {other : SecretId} {answer : Except Error Secret}
    (witnessed : Witnessed now moments scene) (missed : .looked reader id (.error error) ∈ moments)
    (member : moment ∈ moments) (returned : moment.returned? = some (reader, other, answer)) :
    answer = .error error := by
  have trace := witnessed.traces reader
  have own : moment ∈ moments.filter (Moment.isBy reader) :=
    List.mem_filter.mpr ⟨member, Moment.isBy_of_returned returned⟩
  have look : .looked reader id (.error error) ∈ moments.filter (Moment.isBy reader) :=
    List.mem_filter.mpr ⟨missed, by simp [Moment.isBy]⟩
  generalize moments.filter (Moment.isBy reader) = steps at trace own look
  generalize scene.phase reader = phase at trace
  cases trace with
  | idle => cases own
  | holding once => cases List.mem_singleton.mp look
  | looked phase =>
      cases List.mem_singleton.mp look
      cases List.mem_singleton.mp own
      cases returned
      rfl
  | cleared once =>
      rcases List.mem_cons.mp look with same | same
      · cases same
      · cases List.mem_singleton.mp same

theorem looked_of_returned
    (witnessed : Witnessed now moments scene) (member : moment ∈ moments)
    (returned : moment.returned? = some (reader, id, .ok secret)) :
    .looked reader id (.ok secret) ∈ moments := by
  obtain ⟨early, late, rfl⟩ := List.append_of_mem member
  rcases Moment.returned_ok returned with ⟨rfl, -⟩ | ⟨existed, rfl⟩
  · exact member
  · exact List.mem_append_left _ (looked_before_cleared witnessed)

/-- After a deletion nothing is found under the id. -/
theorem nothing_after_deletion
    (witnessed : Witnessed now (early ++ moment :: late) scene)
    (fresh : FreshMoments (early ++ moment :: late))
    (created : .called (.created secret (.ok id)) ∈ early) (deletes : moment.deletes id = true) :
    ∀ other ∈ late, other.finds id = false ∧
      ∀ reader reply, other = .looked reader id reply → reply = .error .notFound := by
  obtain ⟨existed, told, -⟩ := Moment.removed_of_deletes
    (witnessed.sound moment (List.mem_append_right _ List.mem_cons_self)) deletes
  have rows : tales (early ++ moment :: late) =
      tales early ++ .removed id existed :: tales late := by
    simp [tales, told]
  have explained := witnessed.explained
  have fresh' := fresh.tales
  rw [rows] at explained fresh'
  have unfound := Book.not_finds_after_removed explained fresh' (stored_mem_tales.mpr created)
  intro other member
  have sound := witnessed.sound other (List.mem_append_right _ (List.mem_cons_of_mem _ member))
  constructor
  · cases found : other.finds id with
    | false => rfl
    | true =>
        obtain ⟨existing, tells, same⟩ :=
          Moment.removed_of_deletes sound (Moment.deletes_of_finds found)
        have absent := unfound (.removed id existing)
          (List.mem_flatMap.mpr ⟨other, member, by rw [tells]; exact List.mem_cons_self⟩)
        rw [found] at same
        subst same
        simp [Sighting.finds] at absent
  · rintro reader reply rfl
    cases reply with
    | ok seen =>
        have absent := unfound (.seen id seen)
          (List.mem_flatMap.mpr ⟨_, member, List.mem_cons_self⟩)
        simp [Sighting.finds] at absent
    | error error =>
        have known : error = .notFound := by simpa [Moment.isSound] using sound
        rw [known]

theorem secret_eq_of_looked {seen : Secret} (witnessed : Witnessed now moments scene)
    (fresh : FreshMoments moments) (created : .called (.created secret (.ok id)) ∈ moments)
    (looked : .looked reader id (.ok seen) ∈ moments) : seen = secret := by
  obtain ⟨early, late, rfl⟩ := List.append_of_mem looked
  have origin := List.mem_append_left (.looked reader id (.ok seen) :: late)
    (created_of_looked witnessed)
  exact fresh.tales.secret_eq (stored_mem_tales.mpr origin) (stored_mem_tales.mpr created)

/-- The reader looked after the secret had been left and before anybody deleted under its id. -/
def LookedInTime (reader : Nat) (id : SecretId) (secret : Secret) (moments : List Moment) : Prop :=
  ∃ before between rest, moments =
      before ++ .called (.created secret (.ok id)) :: between ++
        .looked reader id (.ok secret) :: rest ∧
    ∀ step ∈ between, step.deletes id = false

theorem lookedInTime_of_looked (witnessed : Witnessed now (early ++ late) scene)
    (fresh : FreshMoments (early ++ late)) (looked : .looked reader id (.ok secret) ∈ early) :
    LookedInTime reader id secret early := by
  obtain ⟨past, rest, rfl⟩ := List.append_of_mem looked
  rw [List.append_assoc, List.cons_append] at witnessed fresh
  obtain ⟨before, between, rfl⟩ := List.append_of_mem (created_of_looked witnessed)
  refine ⟨before, between, rest, rfl, ?_⟩
  -- A deletion in between would have made the look miss.
  intro step member
  cases deletes : step.deletes id with
  | false => rfl
  | true =>
      obtain ⟨one, two, rfl⟩ := List.append_of_mem member
      have around :
          before ++ .called (.created secret (.ok id)) :: (one ++ step :: two) ++
              .looked reader id (.ok secret) :: (rest ++ late) =
            (before ++ .called (.created secret (.ok id)) :: one) ++ step ::
              (two ++ .looked reader id (.ok secret) :: (rest ++ late)) := by simp
      rw [around] at witnessed fresh
      have created : .called (.created secret (.ok id)) ∈
          before ++ .called (.created secret (.ok id)) :: one :=
        List.mem_append_right _ List.mem_cons_self
      have nothing := (nothing_after_deletion witnessed fresh created deletes _
        (List.mem_append_right two List.mem_cons_self)).2 reader (.ok secret) rfl
      cases nothing

theorem finds_once (witnessed : Witnessed now moments scene) (fresh : FreshMoments moments) :
    moments.countP (Moment.finds id) ≤ 1 := by
  apply countP_le_one
  rintro early moment late rfl found other member
  have deletes := Moment.deletes_of_finds found
  obtain ⟨existed, told, same⟩ := Moment.removed_of_deletes
    (witnessed.sound moment (List.mem_append_right _ List.mem_cons_self)) deletes
  rw [found] at same
  subst same
  have explained := witnessed.explained
  rw [tales_append, tales, tales, List.flatMap_cons, told] at explained
  obtain ⟨secret, stored⟩ := Book.stored_of_removed explained
  exact (nothing_after_deletion witnessed fresh (stored_mem_tales.mp stored) deletes other member).1

end Past

/-- Whatever the clients of a service over the store in memory do, and in whatever order their
steps come: a one-time secret reaches only readers that looked before the first deletion, it
reaches them unchanged, and whoever looks after it has reached somebody is told that there is
nothing. Two readings that do not overlap never both get it. -/
theorem double_delivery_needs_overlap (policy : Policy) (ids : Random.Source Seed) (clock : Clock)
    (seed : Seed) (moves : List Move) (moments : List Moment) (last : Scene Memory Seed)
    (ran : replay (Service.stir ⟨memory, ids, policy⟩) moves
      ⟨⟨clock, Memory.empty, seed⟩, fun _ => .idle⟩ = some (moments, last))
    (fresh : FreshMoments moments) (id : SecretId) (secret : Secret)
    (created : .called (.created secret (.ok id)) ∈ moments) (once : secret.oneTime = true) :
    (∀ early moment late reader delivered, moments = early ++ moment :: late →
      moment.returned? = some (reader, id, .ok delivered) →
      delivered = secret ∧ LookedInTime reader id secret early ∧
      ∀ other reply, .looked other id reply ∈ late →
        reply = .error .notFound ∧
        ∀ step ∈ moments, ∀ answer, step.returned? = some (other, id, answer) →
          answer = .error .notFound) ∧
    moments.countP (Moment.finds id) ≤ 1 := by
  have witnessed := witnessed_of_replay rfl clock seed ran
  refine ⟨?_, finds_once witnessed fresh⟩
  intro early moment late reader delivered split returned
  have member : moment ∈ moments := by rw [split]; simp
  have same := secret_eq_of_looked witnessed fresh created
    (looked_of_returned witnessed member returned)
  subst same
  rcases Moment.returned_ok returned with ⟨-, plain⟩ | ⟨existed, rfl⟩
  · rw [once] at plain
    cases plain
  subst split
  have looked := looked_before_cleared witnessed
  have inTime := lookedInTime_of_looked witnessed fresh looked
  refine ⟨rfl, inTime, ?_⟩
  intro other reply later
  have createdEarly : .called (.created delivered (.ok id)) ∈ early := by
    obtain ⟨before, between, rest, rfl, -⟩ := inTime
    simp
  have missed : reply = .error .notFound :=
    (nothing_after_deletion witnessed fresh createdEarly (by simp [Moment.deletes]) _ later).2
      other reply rfl
  subst missed
  refine ⟨rfl, ?_⟩
  intro step taken answer answered
  exact returned_of_missed witnessed
    (List.mem_append_right _ (List.mem_cons_of_mem _ later)) taken answered

section DoubleReading

def doubleReading : List Moment :=
  [.called (.created note (.ok firstId)), .looked 0 firstId (.ok note),
    .looked 1 firstId (.ok note), .cleared 0 firstId note (.ok true),
    .cleared 1 firstId note (.ok false), .looked 2 firstId (.error .notFound)]

theorem double_reading_clears_once :
    ∃ last, replay (Service.stir ⟨memory, countedIds, .standard⟩)
        [.call (.create note) rfl, .look 0 firstId, .look 1 firstId, .clear 0, .clear 1,
          .look 2 firstId]
        ⟨⟨.start 0, Memory.empty, 0⟩, fun _ => .idle⟩ = some (doubleReading, last) ∧
      FreshMoments doubleReading ∧ doubleReading.countP (Moment.finds firstId) ≤ 1 := by
  have answers : (replay (Service.stir ⟨memory, countedIds, .standard⟩)
      [.call (.create note) rfl, .look 0 firstId, .look 1 firstId, .clear 0, .clear 1,
        .look 2 firstId]
      ⟨⟨.start 0, Memory.empty, 0⟩, fun _ => .idle⟩).map Prod.fst = some doubleReading := by
    decide +kernel
  obtain ⟨⟨moments, last⟩, ran, rfl⟩ := Option.map_eq_some_iff.mp answers
  have fresh : FreshMoments doubleReading := List.pairwise_singleton _ firstId
  have created : .called (.created note (.ok firstId)) ∈ doubleReading := List.mem_cons_self
  obtain ⟨-, single⟩ := double_delivery_needs_overlap .standard countedIds (.start 0) 0
    [.call (.create note) rfl, .look 0 firstId, .look 1 firstId, .clear 0, .clear 1,
      .look 2 firstId] doubleReading last ran fresh firstId note created rfl
  exact ⟨last, ran, fresh, single⟩

end DoubleReading

end Service

end DeadDrop
