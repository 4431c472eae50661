import DeadDrop.Proofs.Store.Durable
import Mathlib.Data.List.Nodup

/-!
What is written to disk is drafted first. A draft works on a copy of the table, row by row, and
meets its errors where it meets them: a deletion has taken its row out before it looks at the
deadline, a purge may come to a bad row after any number of good ones. Only a draft that ends well
takes the place of the table. The operations on the table are such drafts, committed, so one that
fails leaves everything as it was, whatever the table holds.
-/

namespace DeadDrop.Store

def Report.isFailure : Report → Bool
  | put answer => !answer.isOk
  | got answer => !answer.isOk
  | status answer => !answer.isOk
  | deleted answer => !answer.isOk
  | purged answer => !answer.isOk
  | waited => false
  | reopened => false

namespace Durable

section Drafts

variable {α β : Type}

/-- A write on a copy of the table: what it comes to, and the copy as far as it gets. -/
structure Draft (α : Type) where
  run : Durable → Answer Durable α

instance : Monad Draft where
  pure value := ⟨fun copy => (.ok value, copy)⟩
  bind draft next := ⟨fun copy =>
    match draft.run copy with
    | (.ok value, copy) => (next value).run copy
    | (.error error, copy) => (.error error, copy)⟩

namespace Draft

/-- A check leaves the copy alone. -/
def check (result : Except Error α) : Draft α := ⟨fun copy => (result, copy)⟩

def rows : Draft Durable := ⟨fun copy => (.ok copy, copy)⟩

def insert (id : SecretId) (value : Bytes) : Draft Unit :=
  ⟨fun copy => (.ok (), Shelf.put copy id value)⟩

/-- The row is gone from the copy as soon as its value is known. -/
def remove (id : SecretId) : Draft (Option Bytes) :=
  ⟨fun copy => (.ok (copy.find? id), copy.erase id)⟩

/-- The copy takes the place of the table only if the draft ends well. -/
def commit (draft : Draft α) (table : Durable) : Answer Durable α :=
  match draft.run table with
  | (.ok value, copy) => (.ok value, copy)
  | (.error error, _) => (.error error, table)

theorem run_remove (id : SecretId) (table : Durable) :
    (remove id).run table = (.ok (table.find? id), table.erase id) := rfl

theorem run_bind_ok {draft : Draft α} {next : α → Draft β} {table copy : Durable} {value : α}
    (ran : draft.run table = (.ok value, copy)) :
    (draft >>= next).run table = (next value).run copy := by
  simp only [bind, ran]

theorem commit_of_error {draft : Draft α} {table copy : Durable} {error : Error}
    (ran : draft.run table = (.error error, copy)) :
    draft.commit table = (.error error, table) := by
  rw [commit, ran]

theorem commit_of_ok {draft : Draft α} {table copy : Durable} {value : α}
    (ran : draft.run table = (.ok value, copy)) : draft.commit table = (.ok value, copy) := by
  rw [commit, ran]

/-- Whatever a draft had done to its copy, the table does not show it if the draft failed. -/
theorem commit_failed {draft : Draft α} {table : Durable}
    (failed : (draft.commit table).1.isOk = false) : (draft.commit table).2 = table := by
  rcases ran : draft.run table with ⟨answer, copy⟩
  cases answer with
  | ok value =>
      rw [commit_of_ok ran] at failed
      cases failed
  | error cause => rw [commit_of_error ran]

end Draft

def draftPut (clock : Clock) (id : SecretId) (secret : Secret) : Draft Unit := do
  let deadline ← Draft.check (deadlineFor clock secret)
  Draft.insert id (encodeValue deadline secret)

def draftDelete (clock : Clock) (id : SecretId) : Draft Bool := do
  match ← Draft.remove id with
  | none => return false
  | some value => Draft.check (isLive clock value)

/-- The ids of the rows that are due, up to the first row without a deadline. -/
def dueKeys (now : Nat) : List (SecretId × Bytes) → Except Error (List SecretId)
  | [] => .ok []
  | slot :: rest => do
      let deadline ← decodeDeadline slot.2
      let others ← dueKeys now rest
      return if deadline ≤ now then slot.1 :: others else others

def removeAll : List SecretId → Draft Unit
  | [] => return
  | id :: others => do
      let _ ← Draft.remove id
      removeAll others

def draftPurge (clock : Clock) : Draft Nat := do
  let now ← Draft.check (wall clock)
  let table ← Draft.rows
  let keys ← Draft.check (dueKeys now table)
  removeAll keys
  return keys.length

end Drafts

section Values

def deadlineOf (value : Bytes) : Nat := Bytes.toNat (value.take deadlineSize)

def isDue (now : Nat) (slot : SecretId × Bytes) : Bool := deadlineOf slot.2 ≤ now

def shortValue : Error := .record "stored value shorter than deadline"

variable {now : Nat} {table : Durable}

theorem decodeDeadline_long {value : Bytes} (long : deadlineSize ≤ value.length) :
    decodeDeadline value = .ok (deadlineOf value) := if_pos long

theorem decodeDeadline_short {value : Bytes} (short : ¬ deadlineSize ≤ value.length) :
    decodeDeadline value = .error shortValue := if_neg short

/-- One bad row spoils the scan, wherever it is. -/
theorem mapM_decodeDeadline (table : Durable) :
    (table.mapM fun slot => decodeDeadline slot.2) =
      if ∀ slot ∈ table, deadlineSize ≤ slot.2.length
      then .ok (table.map fun slot => deadlineOf slot.2) else .error shortValue := by
  induction table with
  | nil => rfl
  | cons slot rest ih =>
      rw [List.mapM_cons, ih]
      simp only [List.forall_mem_cons]
      by_cases long : deadlineSize ≤ slot.2.length
      · rw [decodeDeadline_long long]
        by_cases others : ∀ other ∈ rest, deadlineSize ≤ other.2.length
        · rw [if_pos others, if_pos ⟨long, others⟩]
          rfl
        · rw [if_neg others, if_neg fun all => others all.2]
          rfl
      · have bad : ¬ (deadlineSize ≤ slot.2.length ∧
            ∀ other ∈ rest, deadlineSize ≤ other.2.length) := fun all => long all.1
        rw [decodeDeadline_short long, if_neg bad]
        rfl

theorem dueKeys_eq (now : Nat) (table : Durable) :
    dueKeys now table =
      (table.mapM fun slot => decodeDeadline slot.2).map fun _ =>
        (table.filter (isDue now)).map Prod.fst := by
  induction table with
  | nil => rfl
  | cons slot rest ih =>
      rw [dueKeys, ih, List.mapM_cons]
      by_cases long : deadlineSize ≤ slot.2.length
      · rw [decodeDeadline_long long]
        cases rest.mapM fun slot => decodeDeadline slot.2 with
        | error error => rfl
        | ok deadlines =>
            simp only [bind, Except.bind, Except.map, pure, Except.pure, List.filter_cons, isDue,
              decide_eq_true_eq]
            split <;> rfl
      · rw [decodeDeadline_short long]
        rfl

end Values

section Purging

variable {clock : Clock} {table : Durable} {now : Nat}

theorem run_removeAll (keys : List SecretId) (table : Durable) :
    (removeAll keys).run table = (.ok (), table.filter fun slot => decide (slot.1 ∉ keys)) := by
  induction keys generalizing table with
  | nil =>
      rw [List.filter_eq_self.mpr]
      · rfl
      · simp
  | cons id others ih =>
      rw [removeAll, Draft.run_bind_ok (Draft.run_remove id table), ih, Shelf.erase,
        List.filter_filter]
      simp [Bool.and_comm]

-- With an id standing twice, a row that is not due could go with one that is.
theorem filter_dueKeys (distinct : Shelf.Distinct table) (now : Nat) :
    (table.filter fun slot => decide (slot.1 ∉ (table.filter (isDue now)).map Prod.fst)) =
      table.filter fun slot => !isDue now slot := by
  apply List.filter_congr
  intro slot member
  have same : slot.1 ∈ (table.filter (isDue now)).map Prod.fst ↔ isDue now slot = true := by
    constructor
    · intro among
      obtain ⟨other, due, key⟩ := List.mem_map.mp among
      obtain ⟨inside, past⟩ := List.mem_filter.mp due
      rwa [← List.inj_on_of_nodup_map distinct inside member key]
    · intro past
      exact List.mem_map_of_mem (List.mem_filter.mpr ⟨member, past⟩)
  simp [same]

theorem purge_short (time : wall clock = .ok now)
    (short : ¬ ∀ slot ∈ table, deadlineSize ≤ slot.2.length) :
    purge clock table = (.error shortValue, table) := by
  rw [purge, time]
  simp only [mapM_decodeDeadline, if_neg short]

theorem keep_eq_filter (now : Nat) {stays : Bytes → Bool}
    (agrees : ∀ slot ∈ table, stays slot.2 = !isDue now slot) :
    table.keep stays = table.filter fun slot => !isDue now slot := List.filter_congr agrees

theorem purge_long (time : wall clock = .ok now)
    (long : ∀ slot ∈ table, deadlineSize ≤ slot.2.length) :
    purge clock table =
      (.ok (table.countP (isDue now)), table.filter fun slot => !isDue now slot) := by
  have counted := List.length_eq_countP_add_countP (isDue now) (l := table)
  have left : table.countP (fun slot => decide (¬ isDue now slot = true)) =
      (table.filter fun slot => !isDue now slot).length := by
    rw [List.countP_eq_length_filter]
    simp
  rw [purge, time]
  simp only [mapM_decodeDeadline, if_pos long]
  rw [keep_eq_filter now, counted, left, Nat.add_sub_cancel]
  intro slot member
  simp only [decodeDeadline_long (long slot member), isDue, ← decide_not, Nat.not_le]

end Purging

section Drafted

theorem put_drafted (clock : Clock) (id : SecretId) (secret : Secret) (table : Durable) :
    put clock id secret table = (draftPut clock id secret).commit table := by
  rw [put, Draft.commit, draftPut]
  cases deadlineFor clock secret <;> rfl

theorem delete_drafted (clock : Clock) (id : SecretId) (table : Durable) :
    delete clock id table = (draftDelete clock id).commit table := by
  rw [delete, Draft.commit, draftDelete, Draft.run_bind_ok (Draft.run_remove id table)]
  cases found : table.find? id with
  | none =>
      rw [Shelf.erase_of_find?_eq_none found]
      rfl
  | some value =>
      simp only [Draft.check]
      cases isLive clock value <;> rfl

theorem purge_drafted {table : Durable} (distinct : Shelf.Distinct table) (clock : Clock) :
    purge clock table = (draftPurge clock).commit table := by
  cases time : wall clock with
  | error error =>
      rw [purge, Draft.commit, draftPurge, time]
      rfl
  | ok now =>
      have scanned : (draftPurge clock).run table =
          ((Draft.check (dueKeys now table)) >>= fun keys => do
            removeAll keys
            return keys.length).run table := by
        rw [draftPurge, time]
        rfl
      by_cases long : ∀ slot ∈ table, deadlineSize ≤ slot.2.length
      · have keys : dueKeys now table = .ok ((table.filter (isDue now)).map Prod.fst) := by
          rw [dueKeys_eq, mapM_decodeDeadline, if_pos long]
          rfl
        rw [keys, Draft.run_bind_ok rfl, Draft.run_bind_ok (run_removeAll _ table)] at scanned
        rw [purge_long time long, Draft.commit_of_ok scanned, filter_dueKeys distinct,
          List.length_map, List.countP_eq_length_filter]
      · have failed : dueKeys now table = .error shortValue := by
          rw [dueKeys_eq, mapM_decodeDeadline, if_neg long]
          rfl
        rw [failed] at scanned
        rw [purge_short time long, Draft.commit_of_error scanned]

end Drafted

section Whole

variable {clock : Clock} {table : Durable} {id : SecretId} {secret : Secret}

theorem put_failed (failed : (put clock id secret table).1.isOk = false) :
    (put clock id secret table).2 = table := by
  rw [put_drafted] at failed ⊢
  exact Draft.commit_failed failed

theorem delete_failed (failed : (delete clock id table).1.isOk = false) :
    (delete clock id table).2 = table := by
  rw [delete_drafted] at failed ⊢
  exact Draft.commit_failed failed

/-- A purge fails ahead of its first removal, or not at all. -/
theorem purge_failed (failed : (purge clock table).1.isOk = false) :
    (purge clock table).2 = table := by
  cases time : wall clock with
  | error error => rw [purge, time]
  | ok now =>
      by_cases long : ∀ slot ∈ table, deadlineSize ≤ slot.2.length
      · rw [purge_long time long] at failed
        cases failed
      · rw [purge_short time long]

/-- An operation that fails leaves the table as it was. -/
theorem operate_failed {operation : Operation} {site left : Site Durable} {report : Report}
    (moved : operate durable reopen operation site = some (report, left))
    (failed : report.isFailure = true) : left = site := by
  obtain ⟨clock, table⟩ := site
  cases operation with
  | put id secret =>
      cases moved
      exact congrArg (Site.mk clock) (put_failed ((Bool.not_eq_true' _).mp failed))
  | get id =>
      cases moved
      rfl
  | status id =>
      cases moved
      rfl
  | delete id =>
      cases moved
      exact congrArg (Site.mk clock) (delete_failed ((Bool.not_eq_true' _).mp failed))
  | purge =>
      cases moved
      exact congrArg (Site.mk clock) (purge_failed ((Bool.not_eq_true' _).mp failed))
  | wait seconds =>
      obtain ⟨after, -, waited⟩ := Option.map_eq_some_iff.mp moved
      cases waited
      cases failed
  | reopen =>
      cases moved
      cases failed

theorem delete_left (clock : Clock) (id : SecretId) (table : Durable) :
    (delete clock id table).2 =
      if (delete clock id table).1.isOk then table.erase id else table := by
  cases found : table.find? id with
  | none =>
      rw [delete, found]
      exact (Shelf.erase_of_find?_eq_none found).symm
  | some value =>
      cases judged : isLive clock value with
      | error error =>
          have kept : delete clock id table = (.error error, table) := by
            simp only [delete, found, judged]
          rw [kept]
          rfl
      | ok live =>
          have gone : delete clock id table = (.ok live, table.erase id) := by
            simp only [delete, found, judged]
          rw [gone]
          rfl

/-- What the operations do to a table, whatever is in it. -/
structure AllOrNothing (clock : Clock) (table : Durable) : Prop where
  put : ∀ id secret, put clock id secret table = (draftPut clock id secret).commit table
  delete : ∀ id, delete clock id table = (draftDelete clock id).commit table
  purge : purge clock table = (draftPurge clock).commit table
  failed : ∀ operation report left,
    operate durable reopen operation ⟨clock, table⟩ = some (report, left) →
    report.isFailure = true → left.state = table
  deleted : ∀ id, (Durable.delete clock id table).2 =
    if (Durable.delete clock id table).1.isOk then table.filter fun slot => slot.1 ≠ id else table
  purges : ∀ now, clock.wall? = some now →
    ((∃ count, (Durable.purge clock table).1 = .ok count) ↔
      ∀ slot ∈ table, deadlineSize ≤ slot.2.length)
  purged : ∀ now count, clock.wall? = some now → (Durable.purge clock table).1 = .ok count →
    count = table.countP (isDue now) ∧
      (Durable.purge clock table).2 = table.filter fun slot => !isDue now slot

theorem wall_of_wall? {clock : Clock} {now : Nat} (time : clock.wall? = some now) :
    wall clock = .ok now := by
  rw [wall, time]

theorem operations_all_or_nothing {table : Durable} (distinct : Shelf.Distinct table)
    (clock : Clock) : AllOrNothing clock table where
  put := fun id secret => put_drafted clock id secret table
  delete := fun id => delete_drafted clock id table
  purge := purge_drafted distinct clock
  failed := fun _ _ _ moved failed => congrArg Site.state (operate_failed moved failed)
  deleted := fun id => delete_left clock id table
  purges := by
    intro now time
    by_cases long : ∀ slot ∈ table, deadlineSize ≤ slot.2.length
    · rw [purge_long (wall_of_wall? time) long]
      exact ⟨fun _ => long, fun _ => ⟨_, rfl⟩⟩
    · rw [purge_short (wall_of_wall? time) long]
      refine ⟨?_, fun all => absurd all long⟩
      rintro ⟨_, answered⟩
      cases answered
  purged := by
    intro now count time answered
    by_cases long : ∀ slot ∈ table, deadlineSize ≤ slot.2.length
    · rw [purge_long (wall_of_wall? time) long] at answered ⊢
      cases answered
      exact ⟨rfl, rfl⟩
    · rw [purge_short (wall_of_wall? time) long] at answered
      cases answered

/-- A row that is due, and one gone bad behind it. -/
def spoiled : Durable :=
  [(.zero, List.replicate deadlineSize 0), (⟨Sized.filled 16 255⟩, [7])]

/-- The purge comes to its error after a row that is due. -/
theorem spoiled_table_stays :
    Shelf.Distinct spoiled ∧ spoiled.any (isDue 1700000000) = true ∧
      (¬ ∃ count, (purge (.start 1700000000) spoiled).1 = .ok count) ∧
      (purge (.start 1700000000) spoiled).2 = spoiled := by
  have distinct : Shelf.Distinct spoiled := by
    unfold Shelf.Distinct
    decide
  have whole := operations_all_or_nothing distinct (.start 1700000000)
  have time : Clock.wall? (.start 1700000000) = some 1700000000 := by decide
  have short : ¬ ∀ slot ∈ spoiled, deadlineSize ≤ slot.2.length := by decide
  have stays := whole.failed .purge _ _ rfl (by decide)
  exact ⟨distinct, by decide, fun purged => short ((whole.purges _ time).mp purged), stays⟩

end Whole

end Durable

end DeadDrop.Store
