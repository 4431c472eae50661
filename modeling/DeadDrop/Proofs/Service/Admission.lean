import DeadDrop.Proofs.Service.Calls
import DeadDrop.Proofs.Store.Likeness

/-!
What decides whether a secret is taken. The policy goes first: its rules in their order, of which
the first that is broken is the answer, and a limit that names no lifetime breaks a rule of its own
between the others. Then it is up to the store. A secret that breaks a rule leaves no trace: the
store has not been asked and nothing has been drawn for a name.
-/

namespace DeadDrop

open Store (Query)

variable {State Seed : Type}

section Counts

namespace Lifetime

variable {seconds : Int32}

def counts : List Int32 := [3600, 86400, 604800]

theorem mem_counts_iff : seconds ∈ counts ↔ ∃ lifetime, ofSeconds? seconds = some lifetime := by
  constructor
  · intro named
    obtain ⟨lifetime, -, rfl⟩ : ∃ lifetime ∈ all, lifetime.seconds = seconds :=
      List.mem_map.mp named
    exact ⟨lifetime, ofSeconds?_seconds lifetime⟩
  · rintro ⟨lifetime, named⟩
    rw [← seconds_of_ofSeconds? named]
    cases lifetime <;> decide

theorem not_mem_counts_iff : seconds ∉ counts ↔ ofSeconds? seconds = none := by
  rw [mem_counts_iff, Option.eq_none_iff_forall_ne_some, not_exists]

end Lifetime

end Counts

section Rules

namespace Policy

variable {policy : Policy} {secret : Secret} {violation : Violation}

inductive Breaks (policy : Policy) (secret : Secret) : Violation → Prop where
  | lifetime : secret.expiration ∉ Lifetime.counts → Breaks policy secret (.request .lifetime)
  | notOneTime : policy.forceOneTime = true → secret.oneTime = false →
      Breaks policy secret (.request .notOneTime)
  | configuration {longest : Int32} : policy.maxExpiration = some longest →
      longest ∉ Lifetime.counts → Breaks policy secret (.configuration ⟨longest⟩)
  | expiration {longest : Int32} : policy.maxExpiration = some longest →
      longest.toInt < secret.expiration.toInt → Breaks policy secret (.request .expiration)
  | length : policy.maxLength < secret.message.utf8ByteSize →
      Breaks policy secret (.request .length)

/-- The place of a rule in their order. -/
def Violation.rank : Violation → Nat
  | .request .lifetime => 0
  | .request .notOneTime => 1
  | .configuration _ => 2
  | .request .expiration => 3
  | .request .length => 4

def KeepsBefore (policy : Policy) (secret : Secret) (place : Nat) : Prop :=
  ∀ other, policy.Breaks secret other → place ≤ other.rank

structure First (policy : Policy) (secret : Secret) (violation : Violation) : Prop where
  broken : policy.Breaks secret violation
  before : policy.KeepsBefore secret violation.rank

/-- Nothing speaks against the secret, and the limit is in order. -/
structure Admits (policy : Policy) (secret : Secret) : Prop where
  lifetime : secret.expiration ∈ Lifetime.counts
  oneTime : policy.forceOneTime = true → secret.oneTime = true
  expiration : ∀ longest, policy.maxExpiration = some longest →
    longest ∈ Lifetime.counts ∧ secret.expiration.toInt ≤ longest.toInt
  length : secret.message.utf8ByteSize ≤ policy.maxLength

section Ranks

variable {other : Violation}

theorem Breaks.unnamed (broken : policy.Breaks secret violation) (place : violation.rank = 0) :
    secret.expiration ∉ Lifetime.counts := by
  cases broken with
  | lifetime unnamed => exact unnamed
  | _ => cases place

theorem Breaks.unmarked (broken : policy.Breaks secret violation) (place : violation.rank = 1) :
    policy.forceOneTime = true ∧ secret.oneTime = false := by
  cases broken with
  | notOneTime forced often => exact ⟨forced, often⟩
  | _ => cases place

theorem Breaks.invalid (broken : policy.Breaks secret violation) (place : violation.rank = 2) :
    ∃ longest, policy.maxExpiration = some longest ∧ longest ∉ Lifetime.counts ∧
      violation = .configuration ⟨longest⟩ := by
  cases broken with
  | configuration set unknown => exact ⟨_, set, unknown, rfl⟩
  | _ => cases place

theorem Breaks.longer (broken : policy.Breaks secret violation) (place : violation.rank = 3) :
    ∃ longest, policy.maxExpiration = some longest ∧
      longest.toInt < secret.expiration.toInt := by
  cases broken with
  | expiration set longer => exact ⟨_, set, longer⟩
  | _ => cases place

theorem Breaks.eq_of_rank (broken : policy.Breaks secret violation)
    (again : policy.Breaks secret other) (same : violation.rank = other.rank) :
    violation = other := by
  by_cases place : violation.rank = 2
  · obtain ⟨longest, set, -, rfl⟩ := broken.invalid place
    obtain ⟨bound, set', -, rfl⟩ := again.invalid (same ▸ place)
    rw [set] at set'
    cases set'
    rfl
  · cases broken <;> cases again <;> first | rfl | exact absurd rfl place | cases same

theorem First.unique (first : policy.First secret violation)
    (again : policy.First secret other) : violation = other :=
  first.broken.eq_of_rank again.broken
    (Nat.le_antisymm (first.before other again.broken) (again.before violation first.broken))

end Ranks

theorem Admits.not_breaks (admits : policy.Admits secret) : ¬ policy.Breaks secret violation := by
  intro broken
  cases broken with
  | lifetime unnamed => exact unnamed admits.lifetime
  | notOneTime forced unmarked =>
      exact Bool.false_ne_true (unmarked.symm.trans (admits.oneTime forced))
  | configuration set invalid => exact invalid (admits.expiration _ set).1
  | expiration set longer => exact Int.not_le.mpr longer (admits.expiration _ set).2
  | length long => exact Nat.not_le.mpr long admits.length

theorem maximum_eq_ok_iff {limit : Option Lifetime} :
    policy.maximum = .ok limit ↔ policy.maxExpiration = limit.map Lifetime.seconds := by
  unfold maximum
  constructor
  · intro valid
    split at valid
    · next unset =>
        cases valid
        exact unset
    · next seconds set =>
        split at valid
        · next lifetime named =>
            cases valid
            rw [set, Option.map_some, Lifetime.seconds_of_ofSeconds? named]
        · cases valid
  · intro set
    cases limit with
    | none => rw [set, Option.map_none]
    | some lifetime =>
        rw [set, Option.map_some]
        simp only [Lifetime.ofSeconds?_seconds]

theorem invalid_of_maximum {fault : Misconfiguration} (invalid : policy.maximum = .error fault) :
    policy.maxExpiration = some fault.maxExpiration ∧ fault.maxExpiration ∉ Lifetime.counts := by
  unfold maximum at invalid
  split at invalid
  · cases invalid
  · next seconds set =>
      split at invalid
      · cases invalid
      · next unnamed =>
          cases invalid
          exact ⟨set, Lifetime.not_mem_counts_iff.mpr unnamed⟩

theorem known_of_maximum {limit : Option Lifetime} {longest : Int32}
    (valid : policy.maximum = .ok limit) (set : policy.maxExpiration = some longest) :
    longest ∈ Lifetime.counts := by
  rw [maximum_eq_ok_iff.mp valid, Option.map_eq_some_iff] at set
  obtain ⟨lifetime, -, rfl⟩ := set
  exact Lifetime.mem_counts_iff.mpr ⟨lifetime, Lifetime.ofSeconds?_seconds lifetime⟩

theorem exceeds_iff {lifetime : Lifetime} {limit : Option Lifetime}
    (named : secret.lifetime? = some lifetime) (valid : policy.maximum = .ok limit) :
    exceeds lifetime limit = true ↔ ∃ longest, policy.maxExpiration = some longest ∧
      longest.toInt < secret.expiration.toInt := by
  rw [maximum_eq_ok_iff.mp valid, ← Lifetime.seconds_of_ofSeconds? named]
  cases limit with
  | none => simp [exceeds]
  | some longest => simp [exceeds, longest.shorter_iff lifetime]

section Kept

variable {place : Nat} {lifetime : Lifetime} {limit : Option Lifetime}

theorem KeepsBefore.next (before : policy.KeepsBefore secret place)
    (kept : ∀ other, policy.Breaks secret other → other.rank ≠ place) :
    policy.KeepsBefore secret (place + 1) :=
  fun other broken => Nat.lt_of_le_of_ne (before other broken) (kept other broken).symm

theorem keepsBefore_zero : policy.KeepsBefore secret 0 := fun _ _ => Nat.zero_le _

theorem keepsBefore_one (named : secret.lifetime? = some lifetime) :
    policy.KeepsBefore secret 1 := by
  apply keepsBefore_zero.next
  intro other broken place
  exact broken.unnamed place (Lifetime.mem_counts_iff.mpr ⟨lifetime, named⟩)

theorem keepsBefore_two (before : policy.KeepsBefore secret 1)
    (marked : policy.forceOneTime = true → secret.oneTime = true) :
    policy.KeepsBefore secret 2 := by
  apply before.next
  intro other broken place
  obtain ⟨forced, often⟩ := broken.unmarked place
  rw [marked forced] at often
  cases often

theorem keepsBefore_three (before : policy.KeepsBefore secret 2)
    (valid : policy.maximum = .ok limit) : policy.KeepsBefore secret 3 := by
  apply before.next
  intro other broken place
  obtain ⟨longest, set, unknown, -⟩ := broken.invalid place
  exact unknown (known_of_maximum valid set)

theorem keepsBefore_four (before : policy.KeepsBefore secret 3)
    (named : secret.lifetime? = some lifetime) (valid : policy.maximum = .ok limit)
    (inside : ¬ exceeds lifetime limit = true) : policy.KeepsBefore secret 4 := by
  apply before.next
  intro other broken place
  exact inside ((exceeds_iff named valid).mpr (broken.longer place))

theorem admits_of_kept (named : secret.lifetime? = some lifetime)
    (marked : policy.forceOneTime = true → secret.oneTime = true)
    (valid : policy.maximum = .ok limit) (inside : ¬ exceeds lifetime limit = true)
    (short : ¬ policy.maxLength < secret.size) : policy.Admits secret where
  lifetime := Lifetime.mem_counts_iff.mpr ⟨lifetime, named⟩
  oneTime := marked
  expiration longest set :=
    ⟨known_of_maximum valid set,
      Int.not_lt.mp fun longer => inside ((exceeds_iff named valid).mpr ⟨longest, set, longer⟩)⟩
  length := Nat.not_lt.mp short

end Kept

inductive Decides (policy : Policy) (secret : Secret) : Except Violation Unit → Prop where
  | refused {violation : Violation} : policy.First secret violation →
      Decides policy secret (.error violation)
  | admitted : policy.Admits secret → Decides policy secret (.ok ())

-- One case a rule. By the time it is looked at the rules before it are known to be kept.
theorem check_decides (policy : Policy) (secret : Secret) :
    policy.Decides secret (policy.check secret) := by
  unfold check
  split
  · next unnamed =>
      exact .refused ⟨.lifetime (Lifetime.not_mem_counts_iff.mpr unnamed), keepsBefore_zero⟩
  · next lifetime named =>
      have first : policy.KeepsBefore secret 1 := keepsBefore_one named
      split
      · next unmarked =>
          have often : policy.forceOneTime = true ∧ secret.oneTime = false := by
            simpa using unmarked
          exact .refused ⟨.notOneTime often.1 often.2, first⟩
      · next marked =>
          have once : policy.forceOneTime = true → secret.oneTime = true := by
            simpa using marked
          have second := keepsBefore_two first once
          split
          · next fault invalid =>
              obtain ⟨set, unknown⟩ := invalid_of_maximum invalid
              exact .refused ⟨.configuration set unknown, second⟩
          · next limit valid =>
              have third := keepsBefore_three second valid
              split
              · next beyond =>
                  obtain ⟨longest, set, longer⟩ := (exceeds_iff named valid).mp beyond
                  exact .refused ⟨.expiration set longer, third⟩
              · next inside =>
                  split
                  · next long =>
                      exact .refused ⟨.length long, keepsBefore_four third named valid inside⟩
                  · next short => exact .admitted (admits_of_kept named once valid inside short)

theorem check_eq_ok_iff_admits : policy.check secret = .ok () ↔ policy.Admits secret := by
  have decided := policy.check_decides secret
  generalize policy.check secret = answer at decided ⊢
  cases decided with
  | refused first => exact iff_of_false nofun fun admits => admits.not_breaks first.broken
  | admitted admits => exact iff_of_true rfl admits

/-- The first rule that is broken is what a check finds. -/
theorem check_eq_error_iff :
    policy.check secret = .error violation ↔ policy.First secret violation := by
  have decided := policy.check_decides secret
  generalize policy.check secret = answer at decided ⊢
  cases decided with
  | refused first =>
      constructor
      · rintro ⟨⟩
        exact first
      · intro again
        rw [first.unique again]
  | admitted admits => exact iff_of_false nofun fun first => admits.not_breaks first.broken

theorem admits_or_first (policy : Policy) (secret : Secret) :
    policy.Admits secret ∨ ∃ violation, policy.First secret violation := by
  cases checked : policy.check secret with
  | ok admitted => exact .inl (check_eq_ok_iff_admits.mp checked)
  | error violation => exact .inr ⟨violation, check_eq_error_iff.mp checked⟩

end Policy

end Rules

section Traces

namespace Store

structure Asked (State : Type) where
  inner : State
  queries : List Query

/-- A store that writes down each query ahead of its answer. -/
def asked (store : Store State) : Store (Asked State) where
  get clock id state :=
    let (answer, left) := store.get clock id state.inner
    (answer, ⟨left, state.queries ++ [.get id]⟩)
  put clock id secret state :=
    let (answer, left) := store.put clock id secret state.inner
    (answer, ⟨left, state.queries ++ [.put id secret]⟩)
  delete clock id state :=
    let (answer, left) := store.delete clock id state.inner
    (answer, ⟨left, state.queries ++ [.delete id]⟩)
  status clock id state :=
    let (answer, left) := store.status clock id state.inner
    (answer, ⟨left, state.queries ++ [.status id]⟩)
  purge clock state :=
    let (answer, left) := store.purge clock state.inner
    (answer, ⟨left, state.queries ++ [.purge]⟩)

end Store

namespace Random

structure Drawn (Seed : Type) where
  inner : Seed
  sizes : List Nat

/-- A source that writes down how much is drawn. -/
def Source.drawn (source : Source Seed) : Source (Drawn Seed) :=
  ⟨fun state size =>
    let (octets, left) := source.draw state.inner size
    (octets, ⟨left, state.sizes ++ [size]⟩)⟩

end Random

namespace Service

open Store (Asked)

def audited (service : Service State Seed) : Service (Asked State) (Random.Drawn Seed) :=
  ⟨service.store.asked, service.ids.drawn, service.policy⟩

def World.audited (world : World State Seed) : World (Asked State) (Random.Drawn Seed) :=
  ⟨world.clock, ⟨world.state, []⟩, ⟨world.seed, []⟩⟩

end Service

end Traces

section Creating

namespace Service

variable {service : Service State Seed} {secret : Secret} {world : World State Seed}

theorem create_of_first {violation : Policy.Violation}
    (first : service.policy.First secret violation) :
    service.create secret world = (.error (.ofViolation violation), world) :=
  create_refused (Policy.check_eq_error_iff.mpr first)

theorem create_of_admits (admits : service.policy.Admits secret) :
    service.create secret world =
      let drawn := SecretId.draw service.ids world.seed
      let stored := service.store.put world.clock drawn.1 secret world.state
      ((stored.1.mapError .store).map fun _ => drawn.1, ⟨world.clock, stored.2, drawn.2⟩) :=
  create_of_put (Policy.check_eq_ok_iff_admits.mpr admits) rfl

/-- What the policy finds is told, and nothing else is told as that. -/
theorem create_eq_ofViolation_iff {violation : Policy.Violation} :
    (service.create secret world).1 = .error (.ofViolation violation) ↔
      service.policy.check secret = .error violation := by
  cases checked : service.policy.check secret with
  | error other =>
      rw [create_refused checked]
      cases other <;> cases violation <;> simp [Error.ofViolation]
  | ok admitted =>
      rw [create_of_put checked rfl]
      generalize (service.store.put _ _ secret world.state).1 = answer
      cases answer <;> cases violation <;> simp [Error.ofViolation, Except.mapError, Except.map]

theorem create_ok_iff (id : SecretId) :
    (service.create secret world).1 = .ok id ↔ service.policy.Admits secret ∧
      (service.store.put world.clock (SecretId.draw service.ids world.seed).1 secret
        world.state).1 = .ok () ∧ id = (SecretId.draw service.ids world.seed).1 := by
  rcases service.policy.admits_or_first secret with admits | ⟨violation, first⟩
  · rw [create_of_admits admits]
    dsimp only
    cases (service.store.put _ _ secret world.state).1 with
    | ok stored => simp [admits, Except.mapError, Except.map, eq_comm]
    | error cause => simp [Except.mapError, Except.map]
  · rw [create_of_first first]
    constructor
    · nofun
    · rintro ⟨admits, -⟩
      exact absurd first.broken admits.not_breaks

theorem create_error_iff (error : Error) :
    (service.create secret world).1 = .error error ↔
      (∃ violation, service.policy.First secret violation ∧ error = .ofViolation violation) ∨
        service.policy.Admits secret ∧ ∃ cause, (service.store.put world.clock
          (SecretId.draw service.ids world.seed).1 secret world.state).1 = .error cause ∧
            error = .store cause := by
  rcases service.policy.admits_or_first secret with admits | ⟨violation, first⟩
  · have unbroken : ¬ ∃ violation, service.policy.First secret violation ∧
        error = .ofViolation violation := by
      rintro ⟨violation, first, -⟩
      exact admits.not_breaks first.broken
    rw [create_of_admits admits, or_iff_right unbroken]
    dsimp only
    cases (service.store.put _ _ secret world.state).1 with
    | ok stored => simp [Except.mapError, Except.map]
    | error cause => simp [admits, Except.mapError, Except.map, eq_comm]
  · rw [create_of_first first]
    constructor
    · rintro ⟨⟩
      exact .inl ⟨violation, first, rfl⟩
    · rintro (⟨other, again, rfl⟩ | ⟨admits, -⟩)
      · rw [first.unique again]
      · exact absurd first.broken admits.not_breaks

/-- A secret is taken if the policy admits it and the store puts it away, and under the name that
is drawn for it. Otherwise the answer is the first rule that is broken, and then nothing has been
asked of the store and nothing drawn; or it is what the store reports of the one thing it was
asked. -/
theorem create_is_decided (service : Service State Seed) (secret : Secret)
    (world : World State Seed) :
    let drawn := SecretId.draw service.ids world.seed
    let stored := service.store.put world.clock drawn.1 secret world.state
    (∀ id, (service.create secret world).1 = .ok id ↔
        service.policy.Admits secret ∧ stored.1 = .ok () ∧ id = drawn.1) ∧
      (∀ error, (service.create secret world).1 = .error error ↔
        (∃ violation, service.policy.First secret violation ∧ error = .ofViolation violation) ∨
          service.policy.Admits secret ∧
            ∃ cause, stored.1 = .error cause ∧ error = .store cause) ∧
      (∀ violation, service.policy.First secret violation →
        (service.create secret world).2 = world ∧
          service.audited.create secret world.audited =
            ((service.create secret world).1, world.audited)) ∧
      (service.policy.Admits secret →
        (service.create secret world).2 = ⟨world.clock, stored.2, drawn.2⟩ ∧
          service.audited.create secret world.audited =
            ((service.create secret world).1,
              ⟨world.clock, ⟨stored.2, [.put drawn.1 secret]⟩, ⟨drawn.2, [16]⟩⟩)) := by
  intro drawn stored
  refine ⟨create_ok_iff, create_error_iff, ?_, ?_⟩
  · intro violation first
    have plain : service.create secret world = (.error (.ofViolation violation), world) :=
      create_of_first first
    have noted : service.audited.create secret world.audited =
        (.error (.ofViolation violation), world.audited) := create_of_first first
    rw [plain, noted]
    exact ⟨rfl, rfl⟩
  · intro admits
    have plain := @create_of_admits _ _ service secret world admits
    have noted := @create_of_admits _ _ service.audited secret world.audited admits
    rw [plain, noted]
    exact ⟨rfl, rfl⟩

/-! A service that takes four octets for one reader each, over an empty store. With a limit of two
hours, which names no lifetime, it blames first a secret for several readers and then itself; with
no limit it takes the short note. -/
section Limits

def limited (limit : Option Int32) : Service Store.Memory Nat :=
  ⟨Store.memory, countedIds, ⟨true, limit, 4⟩⟩

def untouched : World Store.Memory Nat := ⟨.start 0, Store.Memory.empty, 0⟩

theorem limits_decide :
    (limited (some 7200)).create (.ofLifetime "notes" .hour false) untouched =
        (.error (.refused .notOneTime), untouched) ∧
      (limited (some 7200)).audited.create (.ofLifetime "notes" .hour true) untouched.audited =
        (.error (.misconfigured ⟨7200⟩), untouched.audited) ∧
      ((limited none).audited.create (.ofLifetime "note" .hour true) untouched.audited).2.seed =
        ⟨1, [16]⟩ := by
  have often : (limited (some 7200)).policy.First (.ofLifetime "notes" .hour false)
      (.request .notOneTime) := Policy.check_eq_error_iff.mp (by decide +kernel)
  have invalid : (limited (some 7200)).policy.First (.ofLifetime "notes" .hour true)
      (.configuration ⟨7200⟩) := Policy.check_eq_error_iff.mp (by decide +kernel)
  have taken : (limited none).policy.Admits (.ofLifetime "note" .hour true) :=
    Policy.check_eq_ok_iff_admits.mp (by decide +kernel)
  obtain ⟨-, fails, blames, -⟩ := create_is_decided (limited (some 7200))
    (.ofLifetime "notes" .hour false) untouched
  obtain ⟨-, fails', blames', -⟩ := create_is_decided (limited (some 7200))
    (.ofLifetime "notes" .hour true) untouched
  obtain ⟨-, -, -, takes⟩ := create_is_decided (limited none) (.ofLifetime "note" .hour true)
    untouched
  have answer := (fails _).mpr (.inl ⟨_, often, rfl⟩)
  have answer' := (fails' _).mpr (.inl ⟨_, invalid, rfl⟩)
  refine ⟨Prod.ext answer (blames _ often).1, ?_, ?_⟩
  · rw [(blames' _ invalid).2, answer']
    rfl
  · rw [(takes taken).2]
    rfl

end Limits

end Service

end Creating

end DeadDrop
