import DeadDrop.Store.Memory

/-!
What a store of lifetimes owes its users, without how it forgets. A ledger says which secret was
left under an id and when; of it only the live part can be seen. The store in memory drops
expired entries when it comes across them, so it differs from the ledger after almost every
operation. It mirrors the ledger as long as both show the same live part, and every operation
answers from that part and keeps it.
-/

namespace DeadDrop.Store

structure Deposit where
  secret : Secret
  storedAt : Nat
  deriving DecidableEq

namespace Deposit

def lifespan (secret : Secret) : Nat := secret.expiration.toInt.toNat * Clock.second

/-- Its age is strictly below its lifespan. -/
def isLive (now : Nat) (deposit : Deposit) : Bool :=
  now - deposit.storedAt < lifespan deposit.secret

theorem isLive_earlier {now later : Nat} (order : now ≤ later) (deposit : Deposit)
    (live : deposit.isLive later = true) : deposit.isLive now = true := by
  simp only [isLive, decide_eq_true_eq] at live ⊢
  omega

end Deposit

abbrev Ledger := SecretId → Option Deposit

namespace Ledger

def empty : Ledger := fun _ => none

def enter (ledger : Ledger) (id : SecretId) (deposit : Deposit) : Ledger :=
  fun other => if other = id then some deposit else ledger other

def strike (ledger : Ledger) (id : SecretId) : Ledger :=
  fun other => if other = id then none else ledger other

def live (now : Nat) (ledger : Ledger) : Ledger :=
  fun id => (ledger id).filter (Deposit.isLive now)

theorem live_enter (now : Nat) (ledger : Ledger) (id other : SecretId) (deposit : Deposit) :
    (ledger.enter id deposit).live now other =
      if other = id then (some deposit).filter (Deposit.isLive now)
      else ledger.live now other := by
  by_cases same : other = id <;> simp [live, enter, same]

theorem live_strike (now : Nat) (ledger : Ledger) (id other : SecretId) :
    (ledger.strike id).live now other = if other = id then none else ledger.live now other := by
  by_cases same : other = id <;> simp [live, strike, same]

theorem live_eq_some {now : Nat} {ledger : Ledger} {id : SecretId} {deposit : Deposit} :
    ledger.live now id = some deposit ↔ ledger id = some deposit ∧ deposit.isLive now = true := by
  simp [live, Option.filter_eq_some_iff]

theorem isSome_live {now : Nat} {ledger : Ledger} {id : SecretId} {deposit : Deposit}
    (held : ledger id = some deposit) : (ledger.live now id).isSome = deposit.isLive now := by
  rw [live, held]
  cases alive : deposit.isLive now <;> simp [Option.filter, alive]

theorem live_eq_none_of_dead {now : Nat} {ledger : Ledger} {id : SecretId} {deposit : Deposit}
    (held : ledger id = some deposit) (dead : deposit.isLive now = false) :
    ledger.live now id = none := by
  simp [live, held, dead]

-- The present view decides every later one, so two ledgers that show the same now always will.
theorem live_later {now later : Nat} (order : now ≤ later) (ledger : Ledger) (id : SecretId) :
    ledger.live later id = (ledger.live now id).filter (Deposit.isLive later) := by
  rw [live, live, Option.filter_filter]
  congr 1
  funext deposit
  by_cases alive : deposit.isLive later = true
  · simp [alive, Deposit.isLive_earlier order deposit alive]
  · simp [alive]

end Ledger

namespace Memory

def Entry.deposit (entry : Entry) : Deposit := ⟨entry.secret, entry.storedAt⟩

def ledger (memory : Memory) : Ledger := fun id => (memory.find? id).map Entry.deposit

/-- The entries carry the spans of their secrets, and the live ones are those of the ledger. -/
structure Mirrors (now : Nat) (memory : Memory) (ledger : Ledger) : Prop where
  distinct : Shelf.Distinct memory
  spans : ∀ id entry, memory.find? id = some entry →
    entry.span = Deposit.lifespan entry.secret
  shows : ∀ id, memory.ledger.live now id = ledger.live now id

variable {clock : Clock} {memory : Memory} {ledger : Ledger}

theorem not_isExpired (clock : Clock) {entry : Entry}
    (span : entry.span = Deposit.lifespan entry.secret) :
    (!isExpired clock entry) = entry.deposit.isLive clock.elapsed := by
  rw [Bool.eq_iff_iff]
  simp [isExpired, Deposit.isLive, Entry.deposit, ← span]

theorem find?_withoutExpired (clock : Clock) (memory : Memory) (id other : SecretId) :
    (memory.withoutExpired clock id).find? other =
      if other = id then (memory.find? id).filter (fun entry => !isExpired clock entry)
      else memory.find? other := by
  unfold withoutExpired
  cases held : memory.find? id with
  | none =>
      by_cases same : other = id
      · simp [same, held]
      · simp [same]
  | some entry =>
      by_cases dead : isExpired clock entry = true
      · by_cases same : other = id
        · simp [dead, same, Shelf.find?_erase, Option.filter]
        · simp [dead, same, Shelf.find?_erase]
      · by_cases same : other = id
        · simp [dead, same, held, Option.filter]
        · simp [dead, same]

theorem Mirrors.empty (now : Nat) : Mirrors now Memory.empty Ledger.empty := by
  refine ⟨Shelf.distinct_nil, ?_, fun _ => rfl⟩
  intro id entry held
  cases held

theorem Mirrors.later {now later : Nat} (mirrors : Mirrors now memory ledger)
    (order : now ≤ later) : Mirrors later memory ledger := by
  refine ⟨mirrors.distinct, mirrors.spans, ?_⟩
  intro id
  rw [Ledger.live_later order, Ledger.live_later order, mirrors.shows id]

theorem Mirrors.live_eq {now : Nat} (mirrors : Mirrors now memory ledger) (id : SecretId) :
    ledger.live now id = ((memory.find? id).map Entry.deposit).filter (Deposit.isLive now) :=
  (mirrors.shows id).symm

theorem Mirrors.found_eq (mirrors : Mirrors clock.elapsed memory ledger) (id : SecretId) :
    ((memory.withoutExpired clock id).find? id).map Entry.deposit =
      ledger.live clock.elapsed id := by
  rw [find?_withoutExpired, if_pos rfl, mirrors.live_eq]
  cases held : memory.find? id with
  | none => rfl
  | some entry =>
      have span := not_isExpired clock (mirrors.spans id entry held)
      cases alive : entry.deposit.isLive clock.elapsed <;> simp [Option.filter, span, alive]

theorem Mirrors.withoutExpired (mirrors : Mirrors clock.elapsed memory ledger) (id : SecretId) :
    Mirrors clock.elapsed (memory.withoutExpired clock id) ledger := by
  refine ⟨?_, ?_, ?_⟩
  · unfold Memory.withoutExpired
    split
    · split
      · exact mirrors.distinct.erase id
      · exact mirrors.distinct
    · exact mirrors.distinct
  · intro other entry held
    rw [find?_withoutExpired] at held
    split at held
    · exact mirrors.spans id entry (Option.eq_some_of_filter_eq_some held)
    · exact mirrors.spans other entry held
  · intro other
    by_cases same : other = id
    · subst same
      rw [Ledger.live, Memory.ledger, mirrors.found_eq]
      exact (Ledger.live_later (Nat.le_refl _) ledger other).symm
    · rw [mirrors.live_eq, Ledger.live, Memory.ledger, find?_withoutExpired, if_neg same]

theorem Mirrors.erase {now : Nat} (mirrors : Mirrors now memory ledger) (id : SecretId) :
    Mirrors now (memory.erase id) (ledger.strike id) := by
  refine ⟨mirrors.distinct.erase id, ?_, ?_⟩
  · intro other entry held
    rw [Shelf.find?_erase] at held
    split at held
    · cases held
    · exact mirrors.spans other entry held
  · intro other
    rw [Ledger.live_strike, mirrors.live_eq, Ledger.live, Memory.ledger, Shelf.find?_erase]
    split <;> rfl

section Operations

theorem Mirrors.get (mirrors : Mirrors clock.elapsed memory ledger) (id : SecretId) :
    ∃ left, Memory.get clock id memory =
        (found ((ledger.live clock.elapsed id).map Deposit.secret), left) ∧
      Mirrors clock.elapsed left ledger := by
  refine ⟨memory.withoutExpired clock id, ?_, mirrors.withoutExpired id⟩
  rw [← mirrors.found_eq, Option.map_map]
  rfl

theorem Mirrors.put (mirrors : Mirrors clock.elapsed memory ledger) (id : SecretId)
    (secret : Secret) (positive : 0 < secret.expiration.toInt) :
    ∃ left, Memory.put clock id secret memory = (.ok (), left) ∧
      Mirrors clock.elapsed left (ledger.enter id ⟨secret, clock.elapsed⟩) := by
  let entry : Entry := ⟨secret, clock.elapsed, Deposit.lifespan secret⟩
  refine ⟨Shelf.put memory id entry, ?_, mirrors.distinct.put id entry, ?_, ?_⟩
  · simp [Memory.put, span, positive, entry, Deposit.lifespan]
  · intro other stored held
    rw [Shelf.find?_put] at held
    split at held
    · cases held; rfl
    · exact mirrors.spans other stored held
  · intro other
    rw [Ledger.live_enter, mirrors.live_eq, Ledger.live, Memory.ledger, Shelf.find?_put]
    split <;> rfl

theorem Mirrors.delete (mirrors : Mirrors clock.elapsed memory ledger) (id : SecretId) :
    ∃ left, Memory.delete clock id memory = (.ok (ledger.live clock.elapsed id).isSome, left) ∧
      Mirrors clock.elapsed left (ledger.strike id) := by
  refine ⟨(memory.withoutExpired clock id).erase id, ?_, (mirrors.withoutExpired id).erase id⟩
  rw [← mirrors.found_eq, Option.isSome_map]
  rfl

theorem Mirrors.status (mirrors : Mirrors clock.elapsed memory ledger) (id : SecretId) :
    ∃ left, Memory.status clock id memory =
        (found ((ledger.live clock.elapsed id).map fun deposit => deposit.secret.oneTime), left) ∧
      Mirrors clock.elapsed left ledger := by
  refine ⟨memory.withoutExpired clock id, ?_, mirrors.withoutExpired id⟩
  rw [← mirrors.found_eq, Option.map_map]
  rfl

theorem Mirrors.purge (mirrors : Mirrors clock.elapsed memory ledger) :
    ∃ count left, Memory.purge clock memory = (.ok count, left) ∧
      Mirrors clock.elapsed left ledger := by
  let stays (entry : Entry) : Bool := !isExpired clock entry
  refine ⟨_, memory.keep stays, rfl, mirrors.distinct.keep stays, ?_, ?_⟩
  · intro id entry held
    rw [Shelf.find?_keep mirrors.distinct] at held
    exact mirrors.spans id entry (Option.eq_some_of_filter_eq_some held)
  · intro id
    -- Under a repeated id, dropping one entry could uncover an older one.
    rw [mirrors.live_eq, Ledger.live, Memory.ledger, Shelf.find?_keep mirrors.distinct]
    cases held : memory.find? id with
    | none => rfl
    | some entry =>
        have span := not_isExpired clock (mirrors.spans id entry held)
        cases alive : entry.deposit.isLive clock.elapsed <;>
          simp [Option.filter, stays, span, alive]

end Operations

end Memory

end DeadDrop.Store
