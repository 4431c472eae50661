import DeadDrop.Proofs.Store.Durable

/-!
Both stores serve the ledger, so until the calendar comes to its last second no run of operations
tells them apart, wherever it purges and wherever it closes and opens the durable one again. In the
last second they do part: a deadline lies in the calendar, so there the durable store takes every
secret for expired, and the store in memory goes on counting.
-/

namespace DeadDrop.Store

theorem durable_serves : Serves durable Durable.reopen Durable.Mirrors where
  put := fun id secret timely mirrors => mirrors.put timely id secret
  get := fun id timely mirrors => mirrors.get timely id
  status := fun id timely mirrors => mirrors.status timely id
  delete := fun id timely mirrors => mirrors.delete timely id
  purge := fun timely mirrors => mirrors.purge timely
  wait := fun seconds mirrors => mirrors.later seconds
  reopen := fun mirrors => mirrors

theorem Memory.Mirrors.put_follows {clock : Clock} {memory : Memory} {ledger : Ledger}
    (mirrors : Memory.Mirrors clock.elapsed memory ledger) (id : SecretId) (secret : Secret) :
    Follows (Memory.Mirrors clock.elapsed) (Memory.put clock id secret memory)
      (Ledger.store.put clock id secret ledger) := by
  cases given : span secret with
  | error error =>
      rw [Ledger.store_put_refused given, Memory.put, given]
      exact ⟨rfl, mirrors⟩
  | ok seconds =>
      have positive : 0 < secret.expiration.toInt := by
        unfold span at given
        split at given
        · assumption
        · cases given
      obtain ⟨left, admitted, mirrors⟩ := mirrors.put id secret positive
      rw [Ledger.store_put_admitted given, admitted]
      exact ⟨rfl, mirrors⟩

theorem memory_serves : Serves memory id fun clock => Memory.Mirrors clock.elapsed where
  put := fun id secret _ mirrors => mirrors.put_follows id secret
  get := fun id _ mirrors => by
    obtain ⟨left, asked, mirrors⟩ := mirrors.get id
    exact .of_eq asked mirrors
  status := fun id _ mirrors => by
    obtain ⟨left, asked, mirrors⟩ := mirrors.status id
    exact .of_eq asked mirrors
  delete := fun id _ mirrors => by
    obtain ⟨left, asked, mirrors⟩ := mirrors.delete id
    exact .of_eq asked mirrors
  purge := fun {clock memory ledger} _ mirrors => by
    obtain ⟨count, left, asked, mirrors⟩ := mirrors.purge
    have purged : (memory.purge clock).2 = left := congrArg Prod.snd asked
    rwa [← purged] at mirrors
  wait := fun seconds mirrors => mirrors.later (Nat.le_add_right _ _)
  reopen := fun mirrors => mirrors

def unpurged (operations : List Operation) : List Operation :=
  operations.filter fun operation => !operation.isPurge

/-- Until the last second of the calendar the two stores give the same answers, and runs that
differ only in when they purge give the same answers too. -/
theorem stores_agree (operations : List Operation) (clock : Clock)
    (within : Within operations clock) :
    ∃ answers, ∀ others, unpurged others = unpurged operations →
      outcome (operate memory id) Report.isAnswer others ⟨clock, Memory.empty⟩ = some answers ∧
      outcome (operate durable Durable.reopen) Report.isAnswer others
        ⟨clock, Durable.empty⟩ = some answers := by
  -- The stores are never compared with each other: the ledger without purges has the answers.
  obtain ⟨answers, -, answered⟩ := outcome_purges within
  refine ⟨answers, ?_⟩
  intro others same
  have lasts : Within others clock := by
    rw [Within, ← spent_filter, ← unpurged, same, unpurged, spent_filter]
    exact within
  obtain ⟨given, ran, filtered⟩ := outcome_purges lasts
  rw [← unpurged, same, unpurged, answered] at filtered
  cases filtered
  constructor
  · rw [outcome_serves memory_serves lasts (Memory.Mirrors.empty clock.elapsed), ran]
  · rw [outcome_serves durable_serves lasts (Durable.Mirrors.empty clock), ran]

section Visit

def visitor : Secret := .ofLifetime "note" .hour false

def visit : List Operation :=
  [.put .zero visitor, .wait 5, .reopen, .get .zero, .purge, .delete .zero]

theorem visit_agrees :
    Within visit (.start 1700000000) ∧ ∃ answers,
      outcome (operate memory id) Report.isAnswer visit
        ⟨.start 1700000000, Memory.empty⟩ = some answers ∧
      outcome (operate durable Durable.reopen) Report.isAnswer visit
        ⟨.start 1700000000, Durable.empty⟩ = some answers := by
  have within : Within visit (.start 1700000000) := by
    unfold Within
    decide
  obtain ⟨answers, same⟩ := stores_agree visit (.start 1700000000) within
  exact ⟨within, answers, same visit rfl⟩

end Visit

section LastSecond

variable {State : Type} {clock : Clock} {secret : Secret} {seconds : Nat}

theorem operate_wait (store : Store State) (reopen : State → State) (state : State)
    {after : Clock} (moved : clock.advance? (seconds * Clock.second) = some after) :
    operate store reopen (.wait seconds) ⟨clock, state⟩ = some (.waited, ⟨after, state⟩) := by
  simp only [operate, moved, Option.map_some]

theorem outcome_put_wait_get (store : Store State) (reopen : State → State) (name : SecretId)
    {state left : State} {answer : Except Error Unit} {after : Clock}
    (stored : store.put clock name secret state = (answer, left))
    (waited : operate store reopen (.wait seconds) ⟨clock, left⟩ =
      some (.waited, ⟨after, left⟩)) :
    outcome (operate store reopen) Report.isAnswer [.put name secret, .wait seconds, .get name]
        ⟨clock, state⟩ =
      some [.put answer, .waited, .got (store.get after name left).1] := by
  have first : operate store reopen (.put name secret) ⟨clock, state⟩ =
      some (.put answer, ⟨clock, left⟩) := by
    simp only [operate, stored]
  simp only [outcome_cons, first, waited]
  simp only [operate, outcome, replay, Option.map, List.filter, Report.isAnswer, if_true]

theorem isLive_later (clock : Clock) (lasting : seconds < secret.expiration.toInt.toNat) :
    Deposit.isLive (later seconds clock).elapsed ⟨secret, clock.elapsed⟩ = true := by
  have positive : 0 < Clock.second := by decide
  rw [Deposit.isLive, Deposit.lifespan, later, Nat.add_sub_cancel_left, decide_eq_true_eq]
  exact Nat.mul_lt_mul_of_pos_right lasting positive

/-- A secret that is put before the last second and would outlive it is shown there by the store in
memory and not by the durable one. -/
theorem stores_part (name : SecretId)
    (early : clock.epoch + clock.seconds < Durable.lastDeadline)
    (last : clock.epoch + clock.seconds + seconds = Durable.lastDeadline)
    (lasting : seconds < secret.expiration.toInt.toNat) :
    outcome (operate memory id) Report.isAnswer [.put name secret, .wait seconds, .get name]
        ⟨clock, Memory.empty⟩ = some [.put (.ok ()), .waited, .got (.ok secret)] ∧
      outcome (operate durable Durable.reopen) Report.isAnswer
        [.put name secret, .wait seconds, .get name] ⟨clock, Durable.empty⟩ =
          some [.put (.ok ()), .waited, .got (.error .notFound)] := by
  have limit : Durable.lastDeadline < Clock.wordLimit := by decide
  have counted : clock.seconds + seconds < Clock.wordLimit := by omega
  have positive : 0 < secret.expiration.toInt := by omega
  have admitted : span secret = .ok secret.expiration.toInt.toNat := if_pos positive
  have moved := advance_later counted
  constructor
  · obtain ⟨left, stored, mirrors⟩ :=
      (Memory.Mirrors.empty clock.elapsed).put name secret positive
    rw [outcome_put_wait_get memory id name stored (operate_wait memory id left moved)]
    have onward : Memory.Mirrors (later seconds clock).elapsed left _ :=
      mirrors.later (Nat.le_add_right _ _)
    have shown : (Ledger.empty.enter name ⟨secret, clock.elapsed⟩).live
        (later seconds clock).elapsed name = some ⟨secret, clock.elapsed⟩ :=
      Ledger.live_eq_some.mpr ⟨if_pos rfl, isLive_later clock lasting⟩
    obtain ⟨_, got, -⟩ := onward.get name
    rw [shown] at got
    have answered : (memory.get (later seconds clock) name left).1 = .ok secret :=
      congrArg Prod.fst got
    rw [answered]
  · have entered := (Durable.Mirrors.empty clock).enter name secret
    have stored : durable.put clock name secret Durable.empty =
        (.ok (), Shelf.put Durable.empty name
          (Durable.valueOf clock.epoch ⟨secret, clock.elapsed⟩)) :=
      Durable.put_admitted early admitted
    have ends : (later seconds clock).epoch + (later seconds clock).seconds =
        Durable.lastDeadline := by
      rw [epoch_later, seconds_later, ← last, Nat.add_assoc]
    have hidden := (entered.later seconds).load_in_last_second ends name
    rw [outcome_put_wait_get durable Durable.reopen name stored
      (operate_wait durable Durable.reopen _ moved)]
    have answered : (durable.get (later seconds clock) name (Shelf.put Durable.empty name
          (Durable.valueOf clock.epoch ⟨secret, clock.elapsed⟩))).1 = .error .notFound :=
      hidden
    rw [answered]

/-- The agreement does not reach to the end of the calendar. -/
theorem stores_part_before_the_end :
    ¬ ∀ (operations : List Operation) (clock : Clock),
      clock.epoch + clock.seconds + spent operations < Clock.wordLimit →
      outcome (operate memory id) Report.isAnswer operations ⟨clock, Memory.empty⟩ =
        outcome (operate durable Durable.reopen) Report.isAnswer operations
          ⟨clock, Durable.empty⟩ := by
  intro agree
  let clock : Clock := .start (Durable.lastDeadline - 10)
  have early : clock.epoch + clock.seconds < Durable.lastDeadline := by decide
  have last : clock.epoch + clock.seconds + 10 = Durable.lastDeadline := by decide
  have lasting : 10 < visitor.expiration.toInt.toNat := by decide
  obtain ⟨shown, hidden⟩ := stores_part .zero early last lasting
  have same := agree [.put .zero visitor, .wait 10, .get .zero] clock (by decide)
  rw [shown, hidden] at same
  simp at same

end LastSecond

end DeadDrop.Store
