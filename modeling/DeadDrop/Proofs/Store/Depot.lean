import DeadDrop.Proofs.Store.Durable
import DeadDrop.Proofs.Store.Ledger

/-!
The two stores side by side, as far as one secret is concerned. Both keep items on a shelf, and
each has its own way to tell until when an item is shown. While it is shown it is found, operations
on other ids leave it alone, and when it is gone only a put under its id brings it back.
-/

namespace DeadDrop

/-- One calendar, in which time only passes. -/
structure Clock.Precedes (early late : Clock) : Prop where
  epoch : early.epoch = late.epoch
  elapsed : early.elapsed ≤ late.elapsed

theorem Clock.Precedes.refl (clock : Clock) : clock.Precedes clock := ⟨rfl, Nat.le_refl _⟩

theorem Clock.Precedes.trans {first second third : Clock} (early : first.Precedes second)
    (late : second.Precedes third) : first.Precedes third :=
  ⟨early.epoch.trans late.epoch, Nat.le_trans early.elapsed late.elapsed⟩

theorem Clock.Precedes.of_advance? {span : Nat} {clock later : Clock}
    (moved : clock.advance? span = some later) : clock.Precedes later := by
  unfold Clock.advance? at moved
  dsimp only at moved
  split at moved
  · cases moved
    exact ⟨rfl, Nat.le_add_right _ _⟩
  · cases moved

theorem Clock.Precedes.seconds {early late : Clock} (precedes : early.Precedes late) :
    early.seconds ≤ late.seconds := Nat.div_le_div_right precedes.elapsed

namespace Store

section Shelves

variable {Item : Type} {shelf left : Shelf Item} {id : SecretId}

structure Shelf.Spares (id : SecretId) (shelf left : Shelf Item) : Prop where
  others : ∀ other, other ≠ id → left.find? other = shelf.find? other
  absent : shelf.find? id = none → left.find? id = none
  distinct : shelf.Distinct → left.Distinct

theorem Shelf.Spares.refl (id : SecretId) (shelf : Shelf Item) : Spares id shelf shelf :=
  ⟨fun _ _ => rfl, fun absent => absent, fun distinct => distinct⟩

theorem Shelf.Spares.trans {last : Shelf Item} (first : Shelf.Spares id shelf left)
    (second : Shelf.Spares id left last) : Shelf.Spares id shelf last :=
  ⟨fun other apart => (second.others other apart).trans (first.others other apart),
    fun absent => second.absent (first.absent absent),
    fun distinct => second.distinct (first.distinct distinct)⟩

theorem Shelf.Spares.erase (spares : Shelf.Spares id shelf left) :
    Shelf.Spares id shelf (left.erase id) := by
  refine ⟨fun other apart => ?_, fun _ => ?_, fun distinct => (spares.distinct distinct).erase id⟩
  · rw [Shelf.find?_erase, if_neg apart, spares.others other apart]
  · rw [Shelf.find?_erase, if_pos rfl]

structure Shelf.Slot (id : SecretId) (item : Option Item) (shelf : Shelf Item) : Prop where
  distinct : shelf.Distinct
  here : shelf.find? id = item

variable {other : SecretId} {item : Option Item}

theorem Shelf.Slot.elsewhere (slot : Shelf.Slot id item shelf)
    (spares : Shelf.Spares other shelf left) (apart : other ≠ id) : Shelf.Slot id item left :=
  ⟨spares.distinct slot.distinct, (spares.others id apart.symm).trans slot.here⟩

theorem Shelf.Slot.absent (slot : Shelf.Slot id none shelf)
    (spares : Shelf.Spares other shelf left) : Shelf.Slot id none left := by
  by_cases same : other = id
  · subst same
    exact ⟨spares.distinct slot.distinct, spares.absent slot.here⟩
  · exact slot.elsewhere spares same

theorem Shelf.Slot.put (slot : Shelf.Slot id item shelf) (apart : other ≠ id) (new : Item) :
    Shelf.Slot id item (shelf.put other new) :=
  ⟨slot.distinct.put other new, by rw [Shelf.find?_put, if_neg apart.symm, slot.here]⟩

theorem Shelf.Slot.keep (slot : Shelf.Slot id item shelf) {stays : Item → Bool}
    (kept : ∀ here ∈ item, stays here = true) : Shelf.Slot id item (shelf.keep stays) := by
  refine ⟨slot.distinct.keep stays, ?_⟩
  rw [Shelf.find?_keep slot.distinct, slot.here]
  cases item with
  | none => rfl
  | some here => rw [Option.filter_some, if_pos (kept here rfl)]

end Shelves

def seconds (secret : Secret) : Nat := secret.expiration.toInt.toNat

section InMemory

namespace Memory

variable {start clock : Clock} {id : SecretId} {secret : Secret} {memory : Memory}

def itemOf (start : Clock) (secret : Secret) : Entry :=
  ⟨secret, start.elapsed, Deposit.lifespan secret⟩

/-- Its age to the nanosecond is below its span. -/
def Shows (seconds : Nat) (start clock : Clock) : Prop :=
  clock.elapsed - start.elapsed < seconds * Clock.second

theorem withoutExpired_spares (clock : Clock) (id : SecretId) (memory : Memory) :
    Shelf.Spares id memory (memory.withoutExpired clock id) := by
  unfold withoutExpired
  split
  · split
    · exact (Shelf.Spares.refl id memory).erase
    · exact .refl id memory
  · exact .refl id memory

theorem withoutExpired_of_absent (absent : memory.find? id = none) :
    memory.withoutExpired clock id = memory := by
  unfold withoutExpired
  rw [absent]

theorem not_isExpired_of_shows (shows : Shows (seconds secret) start clock) :
    isExpired clock (itemOf start secret) = false := by
  have young : ¬ Deposit.lifespan secret ≤ clock.elapsed - start.elapsed := Nat.not_le.mpr shows
  exact decide_eq_false young

theorem withoutExpired_of_shows (held : memory.find? id = some (itemOf start secret))
    (shows : Shows (seconds secret) start clock) : memory.withoutExpired clock id = memory := by
  unfold withoutExpired
  rw [held]
  simp only [not_isExpired_of_shows shows, Bool.false_eq_true, if_false]

theorem put_positive (positive : 0 < secret.expiration.toInt) :
    put clock id secret memory = (.ok (), Shelf.put memory id (itemOf clock secret)) := by
  rw [put, span, if_pos positive]
  rfl

theorem put_cases (clock : Clock) (id : SecretId) (secret : Secret) (memory : Memory) :
    (∃ item, put clock id secret memory = (.ok (), Shelf.put memory id item)) ∨
      ∃ error, put clock id secret memory = (.error error, memory) := by
  unfold put
  split
  · exact .inr ⟨_, rfl⟩
  · exact .inl ⟨_, rfl⟩

theorem get_of_shows (held : memory.find? id = some (itemOf start secret))
    (shows : Shows (seconds secret) start clock) :
    get clock id memory = (.ok secret, memory) := by
  rw [get, withoutExpired_of_shows held shows, held]
  rfl

theorem get_of_absent (absent : memory.find? id = none) :
    get clock id memory = (.error .notFound, memory) := by
  rw [get, withoutExpired_of_absent absent, absent]
  rfl

theorem status_of_absent (absent : memory.find? id = none) :
    status clock id memory = (.error .notFound, memory) := by
  rw [status, withoutExpired_of_absent absent, absent]
  rfl

theorem delete_of_absent (absent : memory.find? id = none) :
    delete clock id memory = (.ok false, memory) := by
  rw [delete, withoutExpired_of_absent absent, absent, Shelf.erase_of_find?_eq_none absent]
  rfl

theorem delete_of_shows (held : memory.find? id = some (itemOf start secret))
    (shows : Shows (seconds secret) start clock) :
    delete clock id memory = (.ok true, memory.erase id) := by
  rw [delete, withoutExpired_of_shows held shows, held]
  rfl

theorem purge_keeps (clock : Clock) (memory : Memory) :
    ∃ stays, (purge clock memory).2 = memory.keep stays ∧ ∀ start secret,
      Shows (seconds secret) start clock → stays (itemOf start secret) = true := by
  refine ⟨fun entry => !isExpired clock entry, rfl, fun start secret shows => ?_⟩
  dsimp only
  rw [not_isExpired_of_shows shows]
  rfl

end Memory

end InMemory

section InTable

namespace Durable

variable {start clock : Clock} {id : SecretId} {secret : Secret} {table : Durable}

def itemOf (start : Clock) (secret : Secret) : Bytes :=
  valueOf start.epoch ⟨secret, start.elapsed⟩

/-- The calendar has not come to the deadline, which lies before the last second at the latest. -/
def Shows (seconds : Nat) (start clock : Clock) : Prop :=
  clock.epoch + clock.seconds < min (start.epoch + start.seconds + seconds) lastDeadline

theorem wall_of_shows {seconds : Nat} (shows : Shows seconds start clock) :
    wall clock = .ok (clock.epoch + clock.seconds) :=
  wall_eq_ok (Nat.le_trans (Nat.le_of_lt shows) (Nat.min_le_right _ _))

theorem load_of_shows (held : table.find? id = some (itemOf start secret))
    (shows : Shows (seconds secret) start clock) : load clock id table = .ok secret := by
  have early : ¬ due start.epoch ⟨secret, start.elapsed⟩ ≤ clock.epoch + clock.seconds :=
    Nat.not_le.mpr shows
  rw [load_of_value (due_le _ _) (wall_of_shows shows) held, if_neg early]

theorem load_of_late (readable : clock.epoch + clock.seconds ≤ lastDeadline)
    (held : table.find? id = some (itemOf start secret))
    (late : ¬ Shows (seconds secret) start clock) : load clock id table = .error .notFound := by
  have passed : due start.epoch ⟨secret, start.elapsed⟩ ≤ clock.epoch + clock.seconds :=
    Nat.le_of_not_lt late
  rw [load_of_value (due_le _ _) (wall_eq_ok readable) held, if_pos passed]

theorem isLive_of_shows (shows : Shows (seconds secret) start clock) :
    isLive clock (itemOf start secret) = .ok true := by
  have early : clock.epoch + clock.seconds < due start.epoch ⟨secret, start.elapsed⟩ := shows
  rw [isLive, itemOf, valueOf, decodeDeadline_encodeValue secret (due_le _ _)]
  simp only [bind, Except.bind, wall_of_shows shows, pure, Except.pure, early, decide_true]

theorem put_positive (readable : clock.wall?.isSome = true)
    (positive : 0 < secret.expiration.toInt) :
    put clock id secret table = (.ok (), Shelf.put table id (itemOf clock secret)) := by
  have now : wall clock = .ok (clock.epoch + clock.seconds) := by
    unfold Clock.wall? at readable
    dsimp only at readable
    split at readable
    · rename_i inside
      simp only [wall, Clock.wall?, if_pos inside]
    · cases readable
  simp only [put, deadlineFor, now, span, if_pos positive, bind, Except.bind, pure, Except.pure]
  rfl

theorem put_cases (clock : Clock) (id : SecretId) (secret : Secret) (table : Durable) :
    (∃ item, put clock id secret table = (.ok (), Shelf.put table id item)) ∨
      ∃ error, put clock id secret table = (.error error, table) := by
  unfold put
  split
  · exact .inr ⟨_, rfl⟩
  · exact .inl ⟨_, rfl⟩

theorem get_of_absent (absent : table.find? id = none) :
    get clock id table = (.error .notFound, table) := by
  rw [get, load_of_absent absent]

theorem status_of_absent (absent : table.find? id = none) :
    status clock id table = (.error .notFound, table) := by
  rw [status, load_of_absent absent]
  rfl

theorem delete_of_absent (absent : table.find? id = none) :
    delete clock id table = (.ok false, table) := by
  rw [delete, absent]

theorem delete_of_shows (held : table.find? id = some (itemOf start secret))
    (shows : Shows (seconds secret) start clock) :
    delete clock id table = (.ok true, table.erase id) := by
  rw [delete, held]
  simp only [isLive_of_shows shows]

theorem delete_spares (clock : Clock) (id : SecretId) (table : Durable) :
    Shelf.Spares id table (delete clock id table).2 := by
  unfold delete
  split
  · exact .refl id table
  · split
    · exact .refl id table
    · exact (Shelf.Spares.refl id table).erase

theorem purge_keeps (clock : Clock) (table : Durable) :
    ∃ stays, (purge clock table).2 = table.keep stays ∧ ∀ start secret,
      Shows (seconds secret) start clock → stays (itemOf start secret) = true := by
  have all : table = table.keep fun _ => true :=
    (List.filter_eq_self.mpr fun _ _ => rfl).symm
  unfold purge
  split
  · exact ⟨_, all, fun _ _ _ => rfl⟩
  · rename_i now time
    split
    · exact ⟨_, all, fun _ _ _ => rfl⟩
    · dsimp only
      refine ⟨_, rfl, fun start secret shows => ?_⟩
      have same := Except.ok.inj (time.symm.trans (wall_of_shows shows))
      have early : now < due start.epoch ⟨secret, start.elapsed⟩ := same ▸ shows
      rw [itemOf, valueOf, decodeDeadline_encodeValue secret (due_le _ _)]
      exact decide_eq_true early

end Durable

end InTable

inductive Depot where
  | memory
  | durable
  deriving DecidableEq

namespace Depot

abbrev Item : Depot → Type
  | memory => Memory.Entry
  | durable => Bytes

abbrev State (depot : Depot) : Type := Shelf depot.Item

def store : (depot : Depot) → Store depot.State
  | memory => Store.memory
  | durable => Store.durable

/-- A deadline needs a calendar to be reckoned in. -/
def Ready : Depot → Clock → Prop
  | memory, _ => True
  | durable, clock => clock.wall?.isSome = true

def itemOf : (depot : Depot) → Clock → Secret → depot.Item
  | memory => Memory.itemOf
  | durable => Durable.itemOf

/-- Whether a secret that was left at one moment for so many seconds is still shown at another. -/
def Shows : Depot → Nat → Clock → Clock → Prop
  | memory => Memory.Shows
  | durable => Durable.Shows

variable {depot : Depot} {start clock : Clock} {id : SecretId} {secret : Secret}
  {shelf : depot.State}

theorem put_positive (ready : depot.Ready clock) (positive : 0 < secret.expiration.toInt)
    (id : SecretId) (shelf : depot.State) :
    depot.store.put clock id secret shelf =
      (.ok (), Shelf.put shelf id (depot.itemOf clock secret)) := by
  cases depot with
  | memory => exact Memory.put_positive positive
  | durable => exact Durable.put_positive ready positive

theorem get_of_shows (held : shelf.find? id = some (depot.itemOf start secret))
    (shows : depot.Shows (seconds secret) start clock) :
    depot.store.get clock id shelf = (.ok secret, shelf) := by
  cases depot with
  | memory => exact Memory.get_of_shows held shows
  | durable => exact Prod.ext (Durable.load_of_shows held shows) rfl

theorem get_of_absent (clock : Clock) (absent : shelf.find? id = none) :
    depot.store.get clock id shelf = (.error .notFound, shelf) := by
  cases depot with
  | memory => exact Memory.get_of_absent absent
  | durable => exact Durable.get_of_absent absent

theorem status_of_absent (clock : Clock) (absent : shelf.find? id = none) :
    depot.store.status clock id shelf = (.error .notFound, shelf) := by
  cases depot with
  | memory => exact Memory.status_of_absent absent
  | durable => exact Durable.status_of_absent absent

theorem delete_of_absent (clock : Clock) (absent : shelf.find? id = none) :
    depot.store.delete clock id shelf = (.ok false, shelf) := by
  cases depot with
  | memory => exact Memory.delete_of_absent absent
  | durable => exact Durable.delete_of_absent absent

theorem delete_of_shows (held : shelf.find? id = some (depot.itemOf start secret))
    (shows : depot.Shows (seconds secret) start clock) :
    depot.store.delete clock id shelf = (.ok true, shelf.erase id) := by
  cases depot with
  | memory => exact Memory.delete_of_shows held shows
  | durable => exact Durable.delete_of_shows held shows

theorem put_cases (depot : Depot) (clock : Clock) (id : SecretId) (secret : Secret)
    (shelf : depot.State) :
    (∃ item, depot.store.put clock id secret shelf = (.ok (), Shelf.put shelf id item)) ∨
      ∃ error, depot.store.put clock id secret shelf = (.error error, shelf) := by
  cases depot with
  | memory => exact Memory.put_cases clock id secret shelf
  | durable => exact Durable.put_cases clock id secret shelf

theorem get_spares (depot : Depot) (clock : Clock) (id : SecretId) (shelf : depot.State) :
    Shelf.Spares id shelf (depot.store.get clock id shelf).2 := by
  cases depot with
  | memory => exact Memory.withoutExpired_spares clock id shelf
  | durable => exact .refl id shelf

theorem status_spares (depot : Depot) (clock : Clock) (id : SecretId) (shelf : depot.State) :
    Shelf.Spares id shelf (depot.store.status clock id shelf).2 := by
  cases depot with
  | memory => exact Memory.withoutExpired_spares clock id shelf
  | durable => exact .refl id shelf

theorem delete_spares (depot : Depot) (clock : Clock) (id : SecretId) (shelf : depot.State) :
    Shelf.Spares id shelf (depot.store.delete clock id shelf).2 := by
  cases depot with
  | memory => exact (Memory.withoutExpired_spares clock id shelf).erase
  | durable => exact Durable.delete_spares clock id shelf

theorem status_of_shows (held : shelf.find? id = some (depot.itemOf start secret))
    (shows : depot.Shows (seconds secret) start clock) :
    (depot.store.status clock id shelf).2 = shelf := by
  cases depot with
  | memory => exact Memory.withoutExpired_of_shows held shows
  | durable => rfl

theorem purge_keeps (depot : Depot) (clock : Clock) (shelf : depot.State) :
    ∃ stays, (depot.store.purge clock shelf).2 = shelf.keep stays ∧ ∀ start secret,
      depot.Shows (seconds secret) start clock → stays (depot.itemOf start secret) = true := by
  cases depot with
  | memory => exact Memory.purge_keeps clock shelf
  | durable => exact Durable.purge_keeps clock shelf

theorem shows_earlier {seconds : Nat} {early late : Clock} (precedes : early.Precedes late)
    (shows : depot.Shows seconds start late) : depot.Shows seconds start early := by
  have epoch := precedes.epoch
  have elapsed := precedes.elapsed
  have passed := precedes.seconds
  cases depot with
  | memory =>
      have young : late.elapsed - start.elapsed < seconds * Clock.second := shows
      show early.elapsed - start.elapsed < seconds * Clock.second
      omega
  | durable =>
      have before : late.epoch + late.seconds <
          min (start.epoch + start.seconds + seconds) Durable.lastDeadline := shows
      show early.epoch + early.seconds <
        min (start.epoch + start.seconds + seconds) Durable.lastDeadline
      omega

end Depot

end Store

end DeadDrop
