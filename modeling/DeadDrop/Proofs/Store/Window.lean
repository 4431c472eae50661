import DeadDrop.Proofs.Store.Depot
import DeadDrop.Proofs.Store.Transaction

/-!
How long the durable store keeps a secret. A deadline is a second of the calendar, and so is the
moment it is held against; both leave out the fraction of a running second. A secret that is left at
any nanosecond is shown for its expiration less one second at the least, and gone after its
expiration at the latest, whatever is done to other ids meanwhile. Deadlines end with the calendar,
so the last second that it can count shows nothing.
-/

namespace DeadDrop.Store

inductive Move where
  | operate (operation : Operation)
  | pass (nanoseconds : Nat)

def Move.Leaves (id : SecretId) : Move → Prop
  | operate (.put other secret) => other = id → secret.expiration.toInt ≤ 0
  | operate (.delete other) => other ≠ id
  | _ => True

def move {State : Type} (store : Store State) (reopen : State → State) :
    Move → Site State → Option (Report × Site State)
  | .operate operation, site => operate store reopen operation site
  | .pass nanoseconds, site =>
      (site.clock.advance? nanoseconds).map fun clock => (.waited, { site with clock := clock })

section Spans

def Move.span : Move → Nat
  | operate operation => operation.seconds * Clock.second
  | pass nanoseconds => nanoseconds

def lasting : List Move → Nat
  | [] => 0
  | step :: rest => step.span + lasting rest

variable {State : Type} (store : Store State) (reopen : State → State)

/-- Nothing but the end of the clock stops a store. -/
theorem move_of_counted {step : Move} {clock : Clock} (state : State)
    (counted : (clock.elapsed + step.span) / Clock.second < Clock.wordLimit) :
    ∃ report left, move store reopen step ⟨clock, state⟩ =
      some (report, ⟨⟨clock.epoch, clock.elapsed + step.span⟩, left⟩) := by
  have passed : clock.advance? step.span =
      some ⟨clock.epoch, clock.elapsed + step.span⟩ := if_pos counted
  cases step with
  | pass nanoseconds => exact ⟨.waited, state, congrArg (Option.map _) passed⟩
  | operate operation =>
      cases operation with
      | wait seconds => exact ⟨.waited, state, congrArg (Option.map _) passed⟩
      | _ =>
          rw [Move.span, show Operation.seconds _ = 0 from rfl, Nat.zero_mul, Nat.add_zero]
          exact ⟨_, _, rfl⟩

theorem replay_of_counted {steps : List Move} {clock : Clock} (state : State)
    (counted : (clock.elapsed + lasting steps) / Clock.second < Clock.wordLimit) :
    ∃ reports left, replay (move store reopen) steps ⟨clock, state⟩ =
      some (reports, ⟨⟨clock.epoch, clock.elapsed + lasting steps⟩, left⟩) := by
  induction steps generalizing clock state with
  | nil => exact ⟨[], state, rfl⟩
  | cons step rest ih =>
      rw [lasting, ← Nat.add_assoc] at counted ⊢
      have first : (clock.elapsed + step.span) / Clock.second < Clock.wordLimit :=
        Nat.lt_of_le_of_lt (Nat.div_le_div_right (Nat.le_add_right _ _)) counted
      have later : ((⟨clock.epoch, clock.elapsed + step.span⟩ : Clock).elapsed + lasting rest) /
          Clock.second < Clock.wordLimit := counted
      obtain ⟨report, middle, moved⟩ := move_of_counted store reopen state first
      obtain ⟨reports, left, ran⟩ := ih middle later
      exact ⟨report :: reports, left, replay_cons_eq_some.mpr ⟨_, _, _, moved, ran, rfl⟩⟩

end Spans

namespace Durable

section Sound

structure Sound (table : Durable) : Prop where
  distinct : Shelf.Distinct table
  long : ∀ slot ∈ table, deadlineSize ≤ slot.2.length

theorem Sound.empty : Sound Durable.empty := ⟨Shelf.distinct_nil, List.forall_mem_nil _⟩

variable {table : Durable}

theorem Sound.filter (sound : Sound table) (stays : SecretId × Bytes → Bool) :
    Sound (table.filter stays) :=
  ⟨sound.distinct.filter stays, fun slot member => sound.long slot (List.mem_filter.mp member).1⟩

theorem deadlineSize_le_length_encodeValue (deadline : Nat) (secret : Secret) :
    deadlineSize ≤ (encodeValue deadline secret).length := by
  rw [encodeValue, List.length_append, Bytes.length_ofNat]
  exact Nat.le_add_right _ _

theorem Sound.put (sound : Sound table) (clock : Clock) (id : SecretId) (secret : Secret) :
    Sound (put clock id secret table).2 := by
  unfold Durable.put
  split
  · exact sound
  · refine ⟨sound.distinct.put id _, List.forall_mem_cons.mpr ⟨?_, (sound.filter _).long⟩⟩
    exact deadlineSize_le_length_encodeValue _ secret

theorem Sound.delete (sound : Sound table) (clock : Clock) (id : SecretId) :
    Sound (delete clock id table).2 := by
  rw [delete_left]
  split
  · exact sound.filter _
  · exact sound

theorem Sound.purge (sound : Sound table) (clock : Clock) : Sound (purge clock table).2 := by
  obtain ⟨stays, left, -⟩ := purge_keeps clock table
  rw [left]
  exact sound.filter _

theorem sound_of_move {step : Move} {site next : Site Durable} {report : Report}
    (sound : Sound site.state)
    (moved : move durable reopen step site = some (report, next)) : Sound next.state := by
  cases step with
  | pass nanoseconds =>
      obtain ⟨clock, -, same⟩ := Option.map_eq_some_iff.mp moved
      cases same
      exact sound
  | operate operation =>
      cases operation with
      | put id secret =>
          cases moved
          exact sound.put site.clock id secret
      | delete id =>
          cases moved
          exact sound.delete site.clock id
      | purge =>
          cases moved
          exact sound.purge site.clock
      | wait seconds =>
          obtain ⟨clock, -, same⟩ := Option.map_eq_some_iff.mp moved
          cases same
          exact sound
      | get id =>
          cases moved
          exact sound
      | status id =>
          cases moved
          exact sound
      | reopen =>
          cases moved
          exact sound

end Sound

section Kept

variable {start clock : Clock} {id : SecretId} {secret : Secret} {table : Durable}

/-- The row of a secret that was left at a start: it is there, or it was due and is not. -/
structure Kept (start : Clock) (id : SecretId) (secret : Secret) (clock : Clock)
    (table : Durable) : Prop where
  since : start.Precedes clock
  sound : Sound table
  own : table.find? id = none ∨ table.find? id = some (itemOf start secret)
  held : Shows (seconds secret) start clock → table.find? id = some (itemOf start secret)

theorem put_of_not_positive (clock : Clock) (id : SecretId) (table : Durable)
    (refused : secret.expiration.toInt ≤ 0) : (put clock id secret table).2 = table := by
  have given : span secret = .error (.lifetime secret.expiration) :=
    if_neg (Int.not_lt.mpr refused)
  unfold Durable.put deadlineFor
  cases wall clock with
  | error error => rfl
  | ok now =>
      rw [given]
      rfl

theorem wall?_isSome (counted : clock.epoch + clock.seconds < Clock.wordLimit) :
    clock.wall?.isSome = true := by
  simp only [Clock.wall?, if_pos counted, Option.isSome_some]

theorem kept_of_put (sound : Sound table) (positive : 0 < secret.expiration.toInt)
    (counted : clock.epoch + clock.seconds < Clock.wordLimit) (id : SecretId) :
    Kept clock id secret clock (put clock id secret table).2 := by
  have after := sound.put clock id secret
  rw [put_positive (wall?_isSome counted) positive] at after ⊢
  have here : (Shelf.put table id (itemOf clock secret)).find? id = some (itemOf clock secret) := by
    rw [Shelf.find?_put, if_pos rfl]
  exact ⟨.refl clock, after, .inr here, fun _ => here⟩

theorem Kept.later {late : Clock} (kept : Kept start id secret clock table)
    (precedes : clock.Precedes late) : Kept start id secret late table := by
  refine ⟨kept.since.trans precedes, kept.sound, kept.own, fun shows => kept.held ?_⟩
  have later : Depot.durable.Shows (seconds secret) start late := shows
  exact Depot.shows_earlier precedes later

theorem Kept.elsewhere {left : Durable} (kept : Kept start id secret clock table)
    (sound : Sound left) (same : left.find? id = table.find? id) :
    Kept start id secret clock left :=
  ⟨kept.since, sound, same ▸ kept.own, fun shows => same.trans (kept.held shows)⟩

theorem Kept.put {other : SecretId} {new : Secret} (kept : Kept start id secret clock table)
    (apart : other = id → new.expiration.toInt ≤ 0) :
    Kept start id secret clock (Durable.put clock other new table).2 := by
  refine kept.elsewhere (kept.sound.put clock other new) ?_
  by_cases same : other = id
  · rw [put_of_not_positive clock other table (apart same)]
  · rcases put_cases clock other new table with ⟨item, admitted⟩ | ⟨error, refused⟩
    · rw [admitted, Shelf.find?_put, if_neg (Ne.symm same)]
    · rw [refused]

theorem Kept.delete {other : SecretId} (kept : Kept start id secret clock table)
    (apart : other ≠ id) : Kept start id secret clock (Durable.delete clock other table).2 :=
  kept.elsewhere (kept.sound.delete clock other)
    ((delete_spares clock other table).others id apart.symm)

theorem Kept.purge (kept : Kept start id secret clock table) :
    Kept start id secret clock (Durable.purge clock table).2 := by
  have sound := kept.sound.purge clock
  obtain ⟨stays, left, spares⟩ := purge_keeps clock table
  rw [left] at sound ⊢
  have filtered := Shelf.find?_keep kept.sound.distinct stays id
  refine ⟨kept.since, sound, ?_, fun shows => ?_⟩
  · rcases kept.own with absent | present
    · left
      rw [filtered, absent]
      rfl
    · rw [filtered, present, Option.filter_some]
      split
      · exact .inr rfl
      · exact .inl rfl
  · rw [filtered, kept.held shows, Option.filter_some, if_pos (spares start secret shows)]

theorem kept_of_move {step : Move} {site next : Site Durable} {report : Report}
    (kept : Kept start id secret site.clock site.state) (alone : step.Leaves id)
    (moved : move durable reopen step site = some (report, next)) :
    Kept start id secret next.clock next.state := by
  cases step with
  | pass nanoseconds =>
      obtain ⟨clock, passed, same⟩ := Option.map_eq_some_iff.mp moved
      cases same
      exact kept.later (.of_advance? passed)
  | operate operation =>
      cases operation with
      | put other new =>
          cases moved
          exact kept.put alone
      | delete other =>
          cases moved
          exact kept.delete alone
      | purge =>
          cases moved
          exact kept.purge
      | wait seconds =>
          obtain ⟨clock, passed, same⟩ := Option.map_eq_some_iff.mp moved
          cases same
          exact kept.later (.of_advance? passed)
      | get other =>
          cases moved
          exact kept
      | status other =>
          cases moved
          exact kept
      | reopen =>
          cases moved
          exact kept

end Kept

section Runs

variable {start : Clock} {id : SecretId} {secret : Secret} {steps : List Move}
  {site last : Site Durable} {reports : List Report}

theorem sound_of_replay (sound : Sound site.state)
    (ran : replay (move durable reopen) steps site = some (reports, last)) : Sound last.state := by
  have every (_ : List Report) (step : Move) (site : Site Durable) (report : Report)
      (next : Site Durable) (sound : Sound site.state)
      (moved : move durable reopen step site = some (report, next)) : Sound next.state :=
    sound_of_move sound moved
  exact replay_invariant every steps [] site sound ran

theorem kept_of_replay (kept : Kept start id secret site.clock site.state)
    (alone : ∀ step ∈ steps, step.Leaves id)
    (ran : replay (move durable reopen) steps site = some (reports, last)) :
    Kept start id secret last.clock last.state := by
  induction steps generalizing site reports with
  | nil =>
      cases ran
      exact kept
  | cons step rest ih =>
      obtain ⟨here, later⟩ := List.forall_mem_cons.mp alone
      obtain ⟨report, next, others, moved, onward, -⟩ := replay_cons_eq_some.mp ran
      exact ih (kept_of_move kept here moved) later onward

end Runs

section Seen

variable {start clock : Clock} {id : SecretId} {secret : Secret} {table : Durable}

/-- Both lookups find the secret, and a purge leaves its row where it is. -/
structure Found (clock : Clock) (id : SecretId) (secret : Secret) (table : Durable) : Prop where
  got : get clock id table = (.ok secret, table)
  status : status clock id table = (.ok secret.oneTime, table)
  row : ∃ value count left, table.find? id = some value ∧
    purge clock table = (.ok count, left) ∧ left.find? id = some value

/-- Neither lookup finds anything, and after a purge there is no row. -/
structure Gone (clock : Clock) (id : SecretId) (table : Durable) : Prop where
  got : get clock id table = (.error .notFound, table)
  status : status clock id table = (.error .notFound, table)
  row : ∃ count left, purge clock table = (.ok count, left) ∧ left.find? id = none

theorem Kept.found (kept : Kept start id secret clock table)
    (shows : Shows (seconds secret) start clock) : Found clock id secret table := by
  have here := kept.held shows
  have loaded := load_of_shows here shows
  refine ⟨Prod.ext loaded rfl, ?_, itemOf start secret, _, _, here,
    purge_long (wall_of_shows shows) kept.sound.long, ?_⟩
  · rw [status, loaded]
    rfl
  · have after := kept.purge.held shows
    rwa [purge_long (wall_of_shows shows) kept.sound.long] at after

theorem isDue_itemOf (late : ¬ Shows (seconds secret) start clock) :
    isDue (clock.epoch + clock.seconds) (id, itemOf start secret) = true := by
  have passed : due start.epoch ⟨secret, start.elapsed⟩ ≤ clock.epoch + clock.seconds :=
    Nat.le_of_not_lt late
  have read := decodeDeadline_encodeValue secret (due_le start.epoch ⟨secret, start.elapsed⟩)
  rw [decodeDeadline_long (deadlineSize_le_length_encodeValue _ secret)] at read
  exact decide_eq_true (Nat.le_trans (Nat.le_of_eq (Except.ok.inj read)) passed)

theorem Kept.gone (kept : Kept start id secret clock table)
    (counted : clock.epoch + clock.seconds ≤ lastDeadline)
    (late : ¬ Shows (seconds secret) start clock) : Gone clock id table := by
  have loaded : load clock id table = .error .notFound := by
    rcases kept.own with absent | present
    · exact load_of_absent absent
    · exact load_of_late counted present late
  refine ⟨Prod.ext loaded rfl, ?_, _, _,
    purge_long (wall_eq_ok counted) kept.sound.long, ?_⟩
  · rw [status, loaded]
    rfl
  · have filtered := Shelf.find?_keep kept.sound.distinct
      (fun value => !isDue (clock.epoch + clock.seconds) (id, value)) id
    have same : (table.filter fun slot => !isDue (clock.epoch + clock.seconds) slot) =
        table.keep fun value => !isDue (clock.epoch + clock.seconds) (id, value) := rfl
    rw [same, filtered]
    rcases kept.own with absent | present
    · rw [absent]
      rfl
    · rw [present, Option.filter_some, isDue_itemOf late]
      rfl

theorem shows_of_early {seconds : Nat} (positive : 0 < seconds) (since : start.Precedes clock)
    (early : clock.elapsed ≤ start.elapsed + (seconds - 1) * Clock.second)
    (counted : clock.epoch + clock.seconds < lastDeadline) : Shows seconds start clock := by
  have unit : 0 < Clock.second := by decide
  have passed : clock.seconds ≤ start.seconds + (seconds - 1) := by
    rw [Clock.seconds, Clock.seconds, ← Nat.add_mul_div_right _ _ unit]
    exact Nat.div_le_div_right early
  have epoch := since.epoch
  rw [Shows]
  omega

theorem not_shows_of_late {seconds : Nat} (since : start.Precedes clock)
    (late : start.elapsed + seconds * Clock.second ≤ clock.elapsed) :
    ¬ Shows seconds start clock := by
  have unit : 0 < Clock.second := by decide
  have passed : start.seconds + seconds ≤ clock.seconds := by
    rw [Clock.seconds, Clock.seconds, ← Nat.add_mul_div_right _ _ unit]
    exact Nat.div_le_div_right late
  have epoch := since.epoch
  rw [Shows]
  omega

/-- A secret that is put in a table of the store's own stands there as long as it is shown, and the
run is not cut short. -/
theorem replay_put_kept (clock : Clock) (id : SecretId) {steps : List Move} (sound : Sound table)
    (positive : 0 < secret.expiration.toInt) (alone : ∀ step ∈ steps, step.Leaves id)
    (counted : clock.epoch + (clock.elapsed + lasting steps) / Clock.second < Clock.wordLimit) :
    ∃ reports left, replay (move durable reopen) (.operate (.put id secret) :: steps)
        ⟨clock, table⟩ = some (reports, ⟨⟨clock.epoch, clock.elapsed + lasting steps⟩, left⟩) ∧
      Kept clock id secret ⟨clock.epoch, clock.elapsed + lasting steps⟩ left := by
  have now : clock.epoch + clock.seconds < Clock.wordLimit :=
    Nat.lt_of_le_of_lt (Nat.add_le_add_left (Nat.div_le_div_right (Nat.le_add_right _ _)) _)
      counted
  obtain ⟨reports, left, ran⟩ := replay_of_counted durable reopen
    (put clock id secret table).2 (Nat.lt_of_le_of_lt (Nat.le_add_left _ _) counted)
  exact ⟨.put (put clock id secret table).1 :: reports, left,
    replay_cons_eq_some.mpr ⟨_, _, _, rfl, ran, rfl⟩,
    kept_of_replay (kept_of_put sound positive now id) alone ran⟩

/-- From any table that the store came to, a secret that is put for some seconds, and left alone, is
found until the last of them, unless the calendar has come to its own last second. After all of them
it is not found, and the next purge takes its row. -/
theorem kept_within_its_window (start : Clock) (before : List Move) {after : List Move}
    {id : SecretId} {secret : Secret} (positive : 0 < secret.expiration.toInt)
    (alone : ∀ step ∈ after, step.Leaves id)
    (counted : start.epoch + (start.elapsed + lasting before + lasting after) / Clock.second <
      Clock.wordLimit) :
    ∃ earlier site reports last,
      replay (move durable reopen) before ⟨start, Durable.empty⟩ = some (earlier, site) ∧
      replay (move durable reopen) (.operate (.put id secret) :: after) site =
        some (reports, last) ∧
      site.clock = ⟨start.epoch, start.elapsed + lasting before⟩ ∧
      last.clock = ⟨start.epoch, start.elapsed + lasting before + lasting after⟩ ∧
      (lasting after ≤ (seconds secret - 1) * Clock.second →
        last.clock.epoch + last.clock.seconds < lastDeadline →
        Found last.clock id secret last.state) ∧
      (seconds secret * Clock.second ≤ lasting after → Gone last.clock id last.state) := by
  have some : 0 < seconds secret := by
    rw [seconds]
    omega
  have first : (start.elapsed + lasting before) / Clock.second < Clock.wordLimit := by
    have less : (start.elapsed + lasting before) / Clock.second ≤
        (start.elapsed + lasting before + lasting after) / Clock.second :=
      Nat.div_le_div_right (Nat.le_add_right _ _)
    omega
  obtain ⟨earlier, table, prepared⟩ :=
    replay_of_counted durable reopen Durable.empty first
  obtain ⟨reports, left, ran, kept⟩ := replay_put_kept
    ⟨start.epoch, start.elapsed + lasting before⟩ id
    (sound_of_replay .empty prepared) positive alone counted
  refine ⟨earlier, _, reports, _, prepared, ran, rfl, rfl, ?_, ?_⟩
  · intro early timely
    exact kept.found (shows_of_early some kept.since (Nat.add_le_add_left early _) timely)
  · intro late
    exact kept.gone (Nat.le_sub_one_of_lt counted)
      (not_shows_of_late kept.since (Nat.add_le_add_left late _))

def guest : Secret := .ofLifetime "note" .hour false

/-- A second less a nanosecond is as long as a floor can hide. -/
def stay : List Move := [.operate .purge, .pass 3598999999999, .operate .reopen, .pass 1]

theorem guest_kept_within_its_window :
    ∃ site reports last,
      replay (move durable reopen) (.operate (.put .zero guest) :: stay) site =
        some (reports, last) ∧
      site.clock = ⟨1700000000, 700000000⟩ ∧ last.clock = ⟨1700000000, 3599700000000⟩ ∧
      Found last.clock .zero guest last.state := by
  have alone : ∀ step ∈ stay, step.Leaves .zero := by
    simp [stay, Move.Leaves]
  have positive : 0 < guest.expiration.toInt := by decide
  obtain ⟨-, site, reports, last, -, ran, first, ended, found, -⟩ :=
    kept_within_its_window (.start 1700000000) [.pass 700000000] positive alone (by decide)
  refine ⟨site, reports, last, ran, first, ended, found (by decide) ?_⟩
  rw [ended]
  decide

/-- The calendar is still to be read in its last second, but all deadlines are over. -/
theorem not_kept_in_the_last_second :
    ¬ ∀ (start : Clock) (after : List Move) (id : SecretId) (secret : Secret),
      0 < secret.expiration.toInt → (∀ step ∈ after, step.Leaves id) →
      start.epoch + (start.elapsed + lasting after) / Clock.second < Clock.wordLimit →
      lasting after ≤ (seconds secret - 1) * Clock.second →
      ∀ reports last, replay (move durable reopen) (.operate (.put id secret) :: after)
        ⟨start, Durable.empty⟩ = some (reports, last) →
        Found last.clock id secret last.state := by
  intro claim
  let start : Clock := .start (lastDeadline - 10)
  let after : List Move := [.pass (10 * Clock.second)]
  have positive : 0 < guest.expiration.toInt := by decide
  have alone : ∀ step ∈ after, step.Leaves .zero := by
    simp [after, Move.Leaves]
  have counted : start.epoch + (start.elapsed + lasting after) / Clock.second <
      Clock.wordLimit := by decide
  obtain ⟨reports, left, ran, kept⟩ :=
    replay_put_kept start .zero .empty positive alone counted
  have found := claim start after .zero guest positive alone counted (by decide) _ _ ran
  have late : ¬ Shows (seconds guest) start ⟨start.epoch, start.elapsed + lasting after⟩ := by
    unfold Shows
    decide
  have gone := kept.gone (Nat.le_sub_one_of_lt counted) late
  cases (congrArg Prod.fst found.got).symm.trans (congrArg Prod.fst gone.got)

end Seen

end Durable

end DeadDrop.Store
