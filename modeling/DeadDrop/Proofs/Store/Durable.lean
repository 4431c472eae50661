import DeadDrop.Proofs.Exchange.Record
import DeadDrop.Proofs.Packet.Framing
import DeadDrop.Proofs.Store.Operations

/-!
The store that survives a restart serves the ledger as the store in memory does. It keeps a deadline
of the calendar where the ledger keeps a moment and a lifespan, keeps everything until it is purged,
and has its secrets as text. As long as the moments of the ledger lie whole seconds apart and the
calendar has not come to its last second, a secret is past its deadline exactly when its lifespan is
over. In the last second the deadlines, which end with the calendar, are all over.
-/

namespace DeadDrop.Store

namespace Durable

section Disk

abbrev Disk := Option Durable

def close (table : Durable) : Disk := some table

def start : Disk → Durable
  | none => empty
  | some table => table

def reopen (table : Durable) : Durable := start (close table)

end Disk

section Values

variable {deadline : Nat} (secret : Secret)

theorem lastDeadline_fits : lastDeadline < 256 ^ deadlineSize := by decide

theorem decodeDeadline_encodeValue (fits : deadline ≤ lastDeadline) :
    decodeDeadline (encodeValue deadline secret) = .ok deadline := by
  have width : (Bytes.ofNat deadlineSize deadline).length = deadlineSize :=
    Bytes.length_ofNat deadlineSize deadline
  have long : deadlineSize ≤ (encodeValue deadline secret).length := by
    rw [encodeValue, List.length_append, width]
    exact Nat.le_add_right _ _
  have front : (encodeValue deadline secret).take deadlineSize =
      Bytes.ofNat deadlineSize deadline := List.take_left' width
  rw [decodeDeadline, if_pos long, front,
    Bytes.toNat_ofNat (Nat.lt_of_le_of_lt fits lastDeadline_fits)]

theorem decodeSecret_encodeValue (deadline : Nat) :
    decodeSecret (encodeValue deadline secret) = .ok secret := by
  have back : (encodeValue deadline secret).drop deadlineSize =
      Text.Utf8.bytes secret.encode := List.drop_left' (Bytes.length_ofNat deadlineSize deadline)
  rw [decodeSecret, back, secret.decode_encode]
  rfl

theorem decodeValue_encodeValue (fits : deadline ≤ lastDeadline) :
    decodeValue (encodeValue deadline secret) = .ok (deadline, secret) := by
  simp [decodeValue, decodeDeadline_encodeValue secret fits, decodeSecret_encodeValue, bind,
    Except.bind, pure, Except.pure]

/-- Secrets go to disk and come back. In the record an expiration of zero and a false mark are left
out, which loses nothing: a record that has them all is read as the same secret. With a deadline in
front the secret is read back as well, and so is the deadline, also where nothing else is read. -/
theorem stored_form_reads_back (deadline : UInt64) (secret : Secret) :
    secret.encode.toList = secret.layout ∧
      Secret.decode (Text.Utf8.bytes secret.encode) = .ok secret ∧
      Secret.decode (Text.Utf8.bytes (String.ofList (Json.writeRecord secret.spelled))) =
        .ok secret ∧
      decodeValue (encodeValue deadline.toNat secret) = .ok (deadline.toNat, secret) ∧
      decodeDeadline (encodeValue deadline.toNat secret) = .ok deadline.toNat := by
  have fits : deadline.toNat ≤ lastDeadline := Nat.le_sub_one_of_lt deadline.toNat_lt
  refine ⟨secret.toList_encode, secret.decode_encode, secret.decode_spelled, ?_, ?_⟩
  · exact decodeValue_encodeValue secret fits
  · exact decodeDeadline_encodeValue secret fits

end Values

section Deadlines

/-- The deadline of a deposit in a calendar, which ends with the calendar. -/
def due (epoch : Nat) (deposit : Deposit) : Nat :=
  min (epoch + deposit.storedAt / Clock.second + deposit.secret.expiration.toInt.toNat)
    lastDeadline

def valueOf (epoch : Nat) (deposit : Deposit) : Bytes :=
  encodeValue (due epoch deposit) deposit.secret

structure Aligned (clock : Clock) (deposit : Deposit) : Prop where
  phase : deposit.storedAt % Clock.second = clock.elapsed % Clock.second
  order : deposit.storedAt ≤ clock.elapsed

theorem due_le (epoch : Nat) (deposit : Deposit) : due epoch deposit ≤ lastDeadline :=
  Nat.min_le_right _ _

theorem sub_eq_of_phase {unit early late : Nat} (phase : early % unit = late % unit) :
    late - early = (late / unit - early / unit) * unit := by
  have first := Nat.div_add_mod early unit
  have second := Nat.div_add_mod late unit
  rw [Nat.sub_mul, Nat.mul_comm (late / unit), Nat.mul_comm (early / unit)]
  omega

theorem due_le_iff {clock : Clock} {deposit : Deposit} (aligned : Aligned clock deposit)
    (timely : clock.epoch + clock.seconds < lastDeadline) :
    due clock.epoch deposit ≤ clock.epoch + clock.seconds ↔
      deposit.isLive clock.elapsed = false := by
  have positive : 0 < Clock.second := by decide
  have ahead : deposit.storedAt / Clock.second ≤ clock.seconds :=
    Nat.div_le_div_right aligned.order
  have age : clock.elapsed - deposit.storedAt =
      (clock.seconds - deposit.storedAt / Clock.second) * Clock.second :=
    sub_eq_of_phase aligned.phase
  have dead : deposit.isLive clock.elapsed = false ↔
      deposit.secret.expiration.toInt.toNat ≤
        clock.seconds - deposit.storedAt / Clock.second := by
    rw [Deposit.isLive, Deposit.lifespan, age, decide_eq_false_iff_not,
      Nat.mul_lt_mul_right positive, Nat.not_lt]
  -- Both sides compare seconds now; where the deadline was cut off, the calendar has not got there.
  rw [dead, due]
  omega

theorem not_due_of_live {clock : Clock} {deposit : Deposit} (aligned : Aligned clock deposit)
    (timely : clock.epoch + clock.seconds < lastDeadline)
    (live : deposit.isLive clock.elapsed = true) :
    ¬ due clock.epoch deposit ≤ clock.epoch + clock.seconds := by
  intro past
  have dead := (due_le_iff aligned timely).mp past
  rw [live] at dead
  cases dead

theorem wall_eq_ok {clock : Clock} (counted : clock.epoch + clock.seconds ≤ lastDeadline) :
    wall clock = .ok (clock.epoch + clock.seconds) := by
  have inside : clock.epoch + clock.seconds < Clock.wordLimit :=
    Nat.lt_of_le_of_lt counted (by decide)
  simp only [wall, Clock.wall?, if_pos inside]

end Deadlines

/-- The table holds what the ledger holds, apart from deposits whose lifespan is over: these may
still be there or be purged. -/
structure Mirrors (clock : Clock) (table : Durable) (ledger : Ledger) : Prop where
  distinct : Shelf.Distinct table
  known : ∀ slot ∈ table, ∃ deposit,
    ledger slot.1 = some deposit ∧ slot.2 = valueOf clock.epoch deposit
  kept : ∀ id deposit, ledger id = some deposit → deposit.isLive clock.elapsed = true →
    table.find? id = some (valueOf clock.epoch deposit)
  aligned : ∀ id deposit, ledger id = some deposit → Aligned clock deposit

variable {clock : Clock} {table : Durable} {ledger : Ledger}

theorem Mirrors.empty (clock : Clock) : Mirrors clock Durable.empty Ledger.empty := by
  refine ⟨Shelf.distinct_nil, ?_, ?_, ?_⟩
  · intro slot member
    cases member
  · intro id deposit held
    cases held
  · intro id deposit held
    cases held

theorem Mirrors.later (mirrors : Mirrors clock table ledger) (seconds : Nat) :
    Mirrors (Store.later seconds clock) table ledger := by
  have epoch := epoch_later seconds clock
  have order : clock.elapsed ≤ (Store.later seconds clock).elapsed := Nat.le_add_right _ _
  refine ⟨mirrors.distinct, ?_, ?_, ?_⟩
  · rw [epoch]
    exact mirrors.known
  · intro id deposit held live
    rw [epoch]
    exact mirrors.kept id deposit held (Deposit.isLive_earlier order deposit live)
  · intro id deposit held
    obtain ⟨phase, before⟩ := mirrors.aligned id deposit held
    refine ⟨phase.trans ?_, Nat.le_trans before order⟩
    exact (Nat.add_mul_mod_self_right _ _ _).symm

/-- What an operation finds in the table, against what the ledger holds. -/
theorem Mirrors.find?_cases (mirrors : Mirrors clock table ledger) (id : SecretId) :
    (table.find? id = none ∧ ledger.live clock.elapsed id = none) ∨
      ∃ deposit, table.find? id = some (valueOf clock.epoch deposit) ∧
        ledger id = some deposit ∧ Aligned clock deposit := by
  cases found : table.find? id with
  | none =>
      -- What the table lacks was never put or has been purged, and a purge spares what is live.
      left
      refine ⟨rfl, ?_⟩
      cases shown : ledger.live clock.elapsed id with
      | none => rfl
      | some deposit =>
          obtain ⟨held, live⟩ := Ledger.live_eq_some.mp shown
          rw [mirrors.kept id deposit held live] at found
          cases found
  | some value =>
      right
      obtain ⟨slot, first, rfl⟩ := Option.map_eq_some_iff.mp found
      have same : slot.1 = id := by simpa using List.find?_some first
      obtain ⟨deposit, held, value⟩ := mirrors.known slot (List.mem_of_find?_eq_some first)
      rw [same] at held
      exact ⟨deposit, by rw [value], held, mirrors.aligned id deposit held⟩

theorem load_of_absent {id : SecretId} (absent : table.find? id = none) :
    load clock id table = .error .notFound := by
  rw [load, absent]
  rfl

/-- The deadline of a value decides whether its secret is given out. -/
theorem load_of_value {id : SecretId} {deadline now : Nat} {secret : Secret}
    (fits : deadline ≤ lastDeadline) (time : wall clock = .ok now)
    (present : table.find? id = some (encodeValue deadline secret)) :
    load clock id table = if deadline ≤ now then .error .notFound else .ok secret := by
  rw [load, present]
  simp only [found, decodeValue_encodeValue secret fits, time, bind, Except.bind]
  rfl

theorem load_of_dead {id : SecretId} {deposit : Deposit}
    (timely : clock.epoch + clock.seconds < lastDeadline) (aligned : Aligned clock deposit)
    (present : table.find? id = some (valueOf clock.epoch deposit))
    (dead : deposit.isLive clock.elapsed = false) : load clock id table = .error .notFound := by
  have past := (due_le_iff aligned timely).mpr dead
  have time := wall_eq_ok (Nat.le_of_lt timely)
  rw [load_of_value (due_le clock.epoch deposit) time present, if_pos past]

theorem load_of_live {id : SecretId} {deposit : Deposit}
    (timely : clock.epoch + clock.seconds < lastDeadline) (aligned : Aligned clock deposit)
    (present : table.find? id = some (valueOf clock.epoch deposit))
    (live : deposit.isLive clock.elapsed = true) : load clock id table = .ok deposit.secret := by
  have ahead := not_due_of_live aligned timely live
  have time := wall_eq_ok (Nat.le_of_lt timely)
  rw [load_of_value (due_le clock.epoch deposit) time present, if_neg ahead]

/-- No deadline lies behind the last second, so there nothing is given out any more. -/
theorem Mirrors.load_in_last_second (mirrors : Mirrors clock table ledger)
    (last : clock.epoch + clock.seconds = lastDeadline) (id : SecretId) :
    load clock id table = .error .notFound := by
  rcases mirrors.find?_cases id with ⟨absent, -⟩ | ⟨deposit, present, -, -⟩
  · exact load_of_absent absent
  · have fits := due_le clock.epoch deposit
    have past : due clock.epoch deposit ≤ clock.epoch + clock.seconds := by rwa [last]
    rw [load_of_value fits (wall_eq_ok (Nat.le_of_eq last)) present, if_pos past]

theorem put_refused {error : Error} {id : SecretId} {secret : Secret}
    (timely : clock.epoch + clock.seconds < lastDeadline) (given : span secret = .error error) :
    put clock id secret table = (.error error, table) := by
  have refused : deadlineFor clock secret = .error error := by
    rw [deadlineFor, wall_eq_ok (Nat.le_of_lt timely), given]
    rfl
  rw [put, refused]

theorem put_admitted {seconds : Nat} {id : SecretId} {secret : Secret}
    (timely : clock.epoch + clock.seconds < lastDeadline) (given : span secret = .ok seconds) :
    put clock id secret table =
      (.ok (), Shelf.put table id (valueOf clock.epoch ⟨secret, clock.elapsed⟩)) := by
  have positive : seconds = secret.expiration.toInt.toNat := by
    unfold span at given
    split at given
    · exact (Except.ok.inj given).symm
    · cases given
  have admitted : deadlineFor clock secret = .ok (due clock.epoch ⟨secret, clock.elapsed⟩) := by
    rw [deadlineFor, wall_eq_ok (Nat.le_of_lt timely), given, positive]
    rfl
  rw [put, admitted]
  rfl

theorem isLive_valueOf {deposit : Deposit}
    (timely : clock.epoch + clock.seconds < lastDeadline) (aligned : Aligned clock deposit) :
    isLive clock (valueOf clock.epoch deposit) = .ok (deposit.isLive clock.elapsed) := by
  have read : isLive clock (valueOf clock.epoch deposit) =
      .ok (decide (clock.epoch + clock.seconds < due clock.epoch deposit)) := by
    rw [isLive, valueOf, decodeDeadline_encodeValue _ (due_le clock.epoch deposit),
      wall_eq_ok (Nat.le_of_lt timely)]
    rfl
  rw [read]
  congr 1
  rw [Bool.eq_iff_iff, decide_eq_true_eq, ← Nat.not_le, due_le_iff aligned timely,
    Bool.not_eq_false]

section Operations

variable (timely : clock.epoch + clock.seconds < lastDeadline)
  (mirrors : Mirrors clock table ledger) (id : SecretId)
include timely mirrors

theorem Mirrors.load :
    Durable.load clock id table =
      found ((ledger.live clock.elapsed id).map Deposit.secret) := by
  rcases mirrors.find?_cases id with ⟨absent, unseen⟩ | ⟨deposit, present, held, aligned⟩
  · rw [load_of_absent absent, unseen]
    rfl
  · by_cases live : deposit.isLive clock.elapsed = true
    · have seen := Ledger.live_eq_some.mpr ⟨held, live⟩
      rw [load_of_live timely aligned present live, seen]
      rfl
    · have dead := Bool.eq_false_iff.mpr live
      have unseen := Ledger.live_eq_none_of_dead held dead
      rw [load_of_dead timely aligned present dead, unseen]
      rfl

theorem Mirrors.get :
    Follows (Mirrors clock) (Durable.get clock id table) (Ledger.store.get clock id ledger) :=
  ⟨mirrors.load timely id, mirrors⟩

theorem Mirrors.status :
    Follows (Mirrors clock) (Durable.status clock id table)
      (Ledger.store.status clock id ledger) := by
  refine ⟨?_, mirrors⟩
  rw [Durable.status, mirrors.load timely id]
  cases shown : ledger.live clock.elapsed id with
  | none => simp [Ledger.store, shown, found, Except.map]
  | some deposit => simp [Ledger.store, shown, found, Except.map]

omit timely in
theorem Mirrors.enter (secret : Secret) :
    Mirrors clock (Shelf.put table id (valueOf clock.epoch ⟨secret, clock.elapsed⟩))
      (ledger.enter id ⟨secret, clock.elapsed⟩) := by
  refine ⟨mirrors.distinct.put id _, ?_, ?_, ?_⟩
  · intro slot member
    rcases List.mem_cons.mp member with rfl | member
    · exact ⟨⟨secret, clock.elapsed⟩, by simp [Ledger.enter], rfl⟩
    · obtain ⟨among, apart⟩ := List.mem_filter.mp member
      have other : slot.1 ≠ id := by simpa using apart
      obtain ⟨held, stored, same⟩ := mirrors.known slot among
      exact ⟨held, by simp [Ledger.enter, other, stored], same⟩
  · intro other held stored live
    rw [Shelf.find?_put]
    by_cases same : other = id
    · simp only [Ledger.enter, if_pos same, Option.some.injEq] at stored
      rw [if_pos same, ← stored]
    · simp only [Ledger.enter, if_neg same] at stored
      rw [if_neg same]
      exact mirrors.kept other held stored live
  · intro other held stored
    by_cases same : other = id
    · simp only [Ledger.enter, if_pos same, Option.some.injEq] at stored
      rw [← stored]
      exact ⟨rfl, Nat.le_refl _⟩
    · simp only [Ledger.enter, if_neg same] at stored
      exact mirrors.aligned other held stored

theorem Mirrors.put (secret : Secret) :
    Follows (Mirrors clock) (Durable.put clock id secret table)
      (Ledger.store.put clock id secret ledger) := by
  cases given : span secret with
  | error error =>
      rw [Ledger.store_put_refused given]
      exact .of_eq (put_refused timely given) mirrors
  | ok seconds =>
      rw [Ledger.store_put_admitted given]
      exact .of_eq (put_admitted timely given) (mirrors.enter id secret)

omit timely in
theorem Mirrors.erase : Mirrors clock (table.erase id) (ledger.strike id) := by
  refine ⟨mirrors.distinct.erase id, ?_, ?_, ?_⟩
  · intro slot member
    obtain ⟨among, apart⟩ := List.mem_filter.mp member
    have other : slot.1 ≠ id := by simpa using apart
    obtain ⟨held, stored, same⟩ := mirrors.known slot among
    exact ⟨held, by simp [Ledger.strike, other, stored], same⟩
  · intro other held stored live
    rw [Shelf.find?_erase]
    by_cases same : other = id
    · simp [Ledger.strike, same] at stored
    · simp only [Ledger.strike, if_neg same] at stored
      rw [if_neg same]
      exact mirrors.kept other held stored live
  · intro other held stored
    by_cases same : other = id
    · simp [Ledger.strike, same] at stored
    · simp only [Ledger.strike, if_neg same] at stored
      exact mirrors.aligned other held stored

theorem Mirrors.delete :
    Follows (Mirrors clock) (Durable.delete clock id table)
      (Ledger.store.delete clock id ledger) := by
  have erased := mirrors.erase id
  rw [Ledger.store_delete, Durable.delete]
  rcases mirrors.find?_cases id with ⟨absent, unseen⟩ | ⟨deposit, present, held, aligned⟩
  · rw [Shelf.erase_of_find?_eq_none absent] at erased
    rw [absent, unseen]
    exact ⟨rfl, erased⟩
  · -- An entry past its deadline goes like any other, with the answer that there was none.
    rw [present, Ledger.isSome_live held]
    simp only [isLive_valueOf timely aligned]
    exact ⟨rfl, erased⟩

omit timely id in
theorem Mirrors.keep {stays : Bytes → Bool}
    (spares : ∀ deposit, Aligned clock deposit → deposit.isLive clock.elapsed = true →
      stays (valueOf clock.epoch deposit) = true) :
    Mirrors clock (table.keep stays) ledger := by
  refine ⟨mirrors.distinct.keep stays, ?_, ?_, mirrors.aligned⟩
  · intro slot member
    exact mirrors.known slot (List.mem_filter.mp member).1
  · intro id deposit held live
    rw [Shelf.find?_keep mirrors.distinct, mirrors.kept id deposit held live]
    exact Option.filter_some_pos (spares deposit (mirrors.aligned id deposit held) live)

omit id in
theorem Mirrors.purge : Mirrors clock (Durable.purge clock table).2 ledger := by
  simp only [Durable.purge, wall_eq_ok (Nat.le_of_lt timely)]
  -- Whether every value has a deadline does not matter: a purge that fails drops nothing.
  cases table.mapM fun slot => decodeDeadline slot.2 with
  | error error => exact mirrors
  | ok _ =>
      simp only
      refine mirrors.keep ?_
      intro deposit aligned live
      have ahead := Nat.lt_of_not_le (not_due_of_live aligned timely live)
      simp only [valueOf, decodeDeadline_encodeValue _ (due_le clock.epoch deposit)]
      exact decide_eq_true ahead

end Operations

end Durable

end DeadDrop.Store
