import DeadDrop.Proofs.Replay
import DeadDrop.Proofs.Service.Calls
import DeadDrop.Proofs.Store.Depot

/-!
A secret in custody. Calls come and time passes, and as long as no call takes the secret away or
leaves another one under its id, it stands where it was left while its time lasts; once it is gone
it stays away.
-/

namespace DeadDrop.Service

open Store (Depot seconds)
open Store.Shelf (Slot Spares)

/-- A call that leaves what is under an id where it is. A reader of a one-time secret does not. -/
def Event.Respects (id : SecretId) (oneTime : Bool) : Event → Prop
  | .created _ reply => reply ≠ .ok id
  | .retrieved other _ => oneTime = true → other ≠ id
  | .deleted other _ => other ≠ id
  | .inspected _ _ | .purged _ | .waited _ => True

def Event.Avoids (id : SecretId) : Event → Prop
  | .created _ reply => reply ≠ .ok id
  | _ => True

variable {depot : Depot} {Seed : Type} {service : Service depot.State Seed}
  {world next : World depot.State Seed} {call : Call} {event : Event} {id other : SecretId}
  {start : Clock} {secret : Secret} {item : Option depot.Item}

section Shelves

theorem retrieve_spares (stored : service.store = depot.store) (id : SecretId)
    (world : World depot.State Seed) :
    Spares id world.state (service.retrieve id world).2.state := by
  have looked := depot.get_spares world.clock id world.state
  rw [← stored] at looked
  rcases got : service.store.get world.clock id world.state with ⟨_ | secret, left⟩
  · rw [got] at looked
    rw [retrieve_missed got]
    exact looked
  · have removed := depot.delete_spares world.clock id left
    rw [got] at looked
    rw [← stored] at removed
    rcases gone : service.store.delete world.clock id left with ⟨answer, after⟩
    rw [gone] at removed
    rw [retrieve_found got gone]
    split
    · exact looked.trans removed
    · exact looked

theorem retrieve_of_shows (stored : service.store = depot.store)
    (held : world.state.find? id = some (depot.itemOf start secret))
    (shows : depot.Shows (seconds secret) start world.clock) :
    service.retrieve id world = (.ok secret, { world with
      state := if secret.oneTime then world.state.erase id else world.state }) := by
  have got := depot.get_of_shows held shows
  have gone := depot.delete_of_shows held shows
  rw [← stored] at got gone
  rw [retrieve_found got gone]
  split <;> rfl

theorem retrieve_of_absent (stored : service.store = depot.store)
    (absent : world.state.find? id = none) :
    service.retrieve id world = (.error .notFound, world) := by
  have got := depot.get_of_absent world.clock absent
  rw [← stored] at got
  rw [retrieve_missed got]
  rfl

theorem status_of_absent (stored : service.store = depot.store)
    (absent : world.state.find? id = none) :
    service.status id world = (.error .notFound, world) := by
  rw [status, ask_eq, stored, depot.status_of_absent world.clock absent]
  rfl

theorem delete_of_absent (stored : service.store = depot.store)
    (absent : world.state.find? id = none) :
    service.delete id world = (.ok false, world) := by
  rw [delete, ask_eq, stored, depot.delete_of_absent world.clock absent]
  rfl

theorem create_admitted (stored : service.store = depot.store)
    (admitted : service.policy.check secret = .ok ()) (ready : depot.Ready world.clock) :
    ∃ id seed, service.create secret world = (.ok id, { world with
      state := world.state.put id (depot.itemOf world.clock secret), seed := seed }) := by
  have put := depot.put_positive ready (Policy.expiration_pos_of_check admitted)
    (SecretId.draw service.ids world.seed).1 world.state
  rw [← stored] at put
  exact ⟨_, _, create_of_put admitted put⟩

theorem slot_of_create (stored : service.store = depot.store)
    (slot : Slot id item world.state) (apart : (service.create secret world).1 ≠ .ok id) :
    Slot id item (service.create secret world).2.state := by
  cases admitted : service.policy.check secret with
  | error violation =>
      rw [create_refused admitted]
      exact slot
  | ok _ =>
      rcases depot.put_cases world.clock (SecretId.draw service.ids world.seed).1 secret
        world.state with ⟨new, put⟩ | ⟨error, put⟩
      · rw [← stored] at put
        rw [create_of_put admitted put] at apart ⊢
        exact slot.put (fun same => apart (congrArg Except.ok same)) new
      · rw [← stored] at put
        rw [create_of_put admitted put]
        exact slot

theorem delete_spares (stored : service.store = depot.store) (id : SecretId)
    (world : World depot.State Seed) :
    Spares id world.state (service.delete id world).2.state := by
  rw [delete, ask_eq, stored]
  exact depot.delete_spares world.clock id world.state

theorem status_spares (stored : service.store = depot.store) (id : SecretId)
    (world : World depot.State Seed) :
    Spares id world.state (service.status id world).2.state := by
  rw [status, ask_eq, stored]
  exact depot.status_spares world.clock id world.state

theorem status_of_shows (stored : service.store = depot.store)
    (held : world.state.find? id = some (depot.itemOf start secret))
    (shows : depot.Shows (seconds secret) start world.clock) :
    (service.status id world).2.state = world.state := by
  rw [status, ask_eq, stored]
  exact depot.status_of_shows held shows

theorem slot_of_purge (stored : service.store = depot.store)
    (slot : Slot id item world.state)
    (kept : ∀ here ∈ item, ∃ start secret, here = depot.itemOf start secret ∧
      depot.Shows (seconds secret) start world.clock) :
    Slot id item (service.purge world).2.state := by
  obtain ⟨stays, left, spares⟩ := depot.purge_keeps world.clock world.state
  have same : (service.purge world).2.state = world.state.keep stays := by
    rw [← left, ← stored]
    rfl
  rw [same]
  refine slot.keep fun here among => ?_
  obtain ⟨start, secret, rfl, shows⟩ := kept here among
  exact spares start secret shows

end Shelves

section Steps

theorem clock_of_retrieve (service : Service depot.State Seed) (id : SecretId)
    (world : World depot.State Seed) :
    (service.retrieve id world).2.clock = world.clock := by
  rcases got : service.store.get world.clock id world.state with ⟨_ | secret, left⟩
  · rw [retrieve_missed got]
  · rcases gone : service.store.delete world.clock id left with ⟨answer, after⟩
    rw [retrieve_found got gone]
    split <;> rfl

theorem clock_of_create (service : Service depot.State Seed) (secret : Secret)
    (world : World depot.State Seed) :
    (service.create secret world).2.clock = world.clock := by
  cases admitted : service.policy.check secret with
  | error violation => rw [create_refused admitted]
  | ok _ =>
      rcases put : service.store.put world.clock (SecretId.draw service.ids world.seed).1 secret
        world.state with ⟨answer, left⟩
      rw [create_of_put admitted put]

inductive Performs (service : Service depot.State Seed)
    (world : World depot.State Seed) : Event → World depot.State Seed → Prop where
  | created (secret : Secret) : Performs service world
      (.created secret (service.create secret world).1) (service.create secret world).2
  | retrieved (id : SecretId) : Performs service world
      (.retrieved id (service.retrieve id world).1) (service.retrieve id world).2
  | deleted (id : SecretId) : Performs service world
      (.deleted id (service.delete id world).1) (service.delete id world).2
  | inspected (id : SecretId) : Performs service world
      (.inspected id (service.status id world).1) (service.status id world).2
  | purged : Performs service world (.purged (service.purge world).1) (service.purge world).2
  | waited (nanoseconds : Nat) {clock : Clock} (precedes : world.clock.Precedes clock) :
      Performs service world (.waited nanoseconds) { world with clock := clock }

theorem performs_of_perform (performed : service.perform call world = some (event, next)) :
    Performs service world event next := by
  cases call with
  | create secret =>
      obtain ⟨rfl, rfl⟩ : _ = event ∧ _ = next := Prod.mk.inj (Option.some.inj performed)
      exact .created secret
  | retrieve id =>
      obtain ⟨rfl, rfl⟩ : _ = event ∧ _ = next := Prod.mk.inj (Option.some.inj performed)
      exact .retrieved id
  | delete id =>
      obtain ⟨rfl, rfl⟩ : _ = event ∧ _ = next := Prod.mk.inj (Option.some.inj performed)
      exact .deleted id
  | status id =>
      obtain ⟨rfl, rfl⟩ : _ = event ∧ _ = next := Prod.mk.inj (Option.some.inj performed)
      exact .inspected id
  | purge =>
      obtain ⟨rfl, rfl⟩ : _ = event ∧ _ = next := Prod.mk.inj (Option.some.inj performed)
      exact .purged
  | wait nanoseconds =>
      obtain ⟨later, advanced, same⟩ := Option.map_eq_some_iff.mp performed
      obtain ⟨clock, moved, rfl⟩ := Option.map_eq_some_iff.mp advanced
      obtain ⟨rfl, rfl⟩ := Prod.mk.inj same
      exact .waited nanoseconds (.of_advance? moved)

theorem Performs.precedes (performs : Performs service world event next) :
    world.clock.Precedes next.clock := by
  cases performs with
  | created secret =>
      rw [clock_of_create]
      exact .refl _
  | retrieved id =>
      rw [clock_of_retrieve]
      exact .refl _
  | deleted id => exact .refl _
  | inspected id => exact .refl _
  | purged => exact .refl _
  | waited nanoseconds precedes => exact precedes

/-- What is shown stays where it is unless a call takes it away or puts something in its place. -/
theorem Performs.slot (performs : Performs service world event next)
    (stored : service.store = depot.store)
    (slot : Slot id (some (depot.itemOf start secret)) world.state)
    (shows : depot.Shows (seconds secret) start world.clock)
    (respects : event.Respects id secret.oneTime) :
    Slot id (some (depot.itemOf start secret)) next.state := by
  cases performs with
  | created other => exact slot_of_create stored slot respects
  | retrieved other =>
      by_cases same : other = id
      · subst same
        have lasting : ¬ secret.oneTime = true := fun once => respects once rfl
        rw [retrieve_of_shows stored slot.here shows, if_neg lasting]
        exact slot
      · exact slot.elsewhere (retrieve_spares stored other world) same
  | deleted other => exact slot.elsewhere (delete_spares stored other world) respects
  | inspected other =>
      by_cases same : other = id
      · subst same
        rw [status_of_shows stored slot.here shows]
        exact slot
      · exact slot.elsewhere (status_spares stored other world) same
  | purged =>
      refine slot_of_purge stored slot fun here among => ?_
      exact ⟨start, secret, (Option.mem_some.mp among).symm, shows⟩
  | waited nanoseconds precedes => exact slot

theorem Performs.gone (performs : Performs service world event next)
    (stored : service.store = depot.store) (slot : Slot id none world.state)
    (avoids : event.Avoids id) : Slot id none next.state := by
  cases performs with
  | created other => exact slot_of_create stored slot avoids
  | retrieved other => exact slot.absent (retrieve_spares stored other world)
  | deleted other => exact slot.absent (delete_spares stored other world)
  | inspected other => exact slot.absent (status_spares stored other world)
  | purged => exact slot_of_purge stored slot fun here among => nomatch among
  | waited nanoseconds precedes => exact slot

end Steps

end DeadDrop.Service
