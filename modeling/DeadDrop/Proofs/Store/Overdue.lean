import DeadDrop.Proofs.Store.Transaction

/-!
What is past its deadline, in a table that may hold anything. A deletion looks at the deadline only,
and so does a purge: to both of them an overdue row is not there any more, and it is gone
afterwards. A look-up reads the record first. It answers that nothing was found if the record is
one, and else what is wrong with it.
-/

namespace DeadDrop.Store

section Rows

variable {Item : Type} {shelf : Shelf Item} {id : SecretId} {item : Item}

theorem Shelf.perm_erase (distinct : Shelf.Distinct shelf) (found : shelf.find? id = some item) :
    shelf.Perm ((id, item) :: shelf.erase id) := by
  induction shelf with
  | nil => cases found
  | cons slot rest ih =>
      obtain ⟨absent, tail⟩ := List.nodup_cons.mp distinct
      rw [Shelf.find?_cons] at found
      by_cases here : slot.1 = id
      · rw [if_pos here, Option.some.injEq] at found
        have others : Shelf.erase rest id = rest :=
          Shelf.erase_of_find?_eq_none (Shelf.find?_eq_none_of_not_mem (here ▸ absent))
        have kept : Shelf.erase (slot :: rest) id = rest := by
          rw [← others]
          simp [Shelf.erase, here]
        rw [kept, ← here, ← found]
      · rw [if_neg here] at found
        have kept : Shelf.erase (slot :: rest) id = slot :: Shelf.erase rest id := by
          simp [Shelf.erase, here]
        rw [kept]
        exact ((ih tail found).cons slot).trans (.swap _ _ _)

theorem Shelf.find?_erase_self (shelf : Shelf Item) (id : SecretId) :
    (shelf.erase id).find? id = none := by
  rw [Shelf.find?_erase, if_pos rfl]

end Rows

namespace Durable

/-- A row past its deadline in the second `now`, whatever stands behind the deadline. -/
structure Overdue (now : Nat) (table : Durable) (id : SecretId) (value : Bytes) : Prop where
  row : table.find? id = some value
  long : deadlineSize ≤ value.length
  past : deadlineOf value ≤ now

/-- Why a look-up does not give out an overdue row. -/
def excuse (value : Bytes) : Error :=
  match Secret.decode (value.drop deadlineSize) with
  | .ok _ => .notFound
  | .error error => .record error.message

theorem excuse_eq_notFound_iff {value : Bytes} :
    excuse value = .notFound ↔ ∃ secret, Secret.decode (value.drop deadlineSize) = .ok secret := by
  unfold excuse
  cases Secret.decode (value.drop deadlineSize) with
  | ok secret => exact ⟨fun _ => ⟨secret, rfl⟩, fun _ => rfl⟩
  | error error =>
      constructor
      · intro same
        cases same
      · rintro ⟨secret, decoded⟩
        cases decoded

variable {clock : Clock} {now : Nat} {table : Durable} {id : SecretId} {value : Bytes}

theorem Overdue.load (overdue : Overdue now table id value) (time : wall clock = .ok now) :
    load clock id table = .error (excuse value) := by
  rw [Durable.load, overdue.row]
  simp only [found, decodeValue, decodeDeadline_long overdue.long, decodeSecret, excuse, time,
    bind, Except.bind]
  cases Secret.decode (value.drop deadlineSize) with
  | error error => rfl
  | ok secret => exact if_pos overdue.past

theorem Overdue.delete (overdue : Overdue now table id value) (time : wall clock = .ok now) :
    delete clock id table = (.ok false, table.erase id) := by
  have dead : isLive clock value = .ok false := by
    rw [isLive, decodeDeadline_long overdue.long, time]
    exact congrArg Except.ok (decide_eq_false (Nat.not_lt.mpr overdue.past))
  simp only [Durable.delete, overdue.row, dead]

theorem Overdue.purge (overdue : Overdue now table id value) (distinct : Shelf.Distinct table)
    (time : wall clock = .ok now) {count : Nat} (purged : (purge clock table).1 = .ok count) :
    count = (table.erase id).countP (isDue now) + 1 ∧
      (purge clock table).2.find? id = none := by
  have due : isDue now (id, value) = true := decide_eq_true overdue.past
  by_cases long : ∀ slot ∈ table, deadlineSize ≤ slot.2.length
  · rw [purge_long time long] at purged ⊢
    cases purged
    constructor
    · rw [(Shelf.perm_erase distinct overdue.row).countP_eq, List.countP_cons_of_pos due]
    · have filtered := Shelf.find?_keep distinct (fun value => !isDue now (id, value)) id
      rw [overdue.row, Option.filter_some, due] at filtered
      exact filtered
  · rw [purge_short time long] at purged
    cases purged

/-- An overdue row is absent to all operations but the look-ups: these find it absent if what stands
behind its deadline is the record of a secret, and say what is wrong with it if it is not. -/
theorem overdue_is_absent_but_for_its_record (distinct : Shelf.Distinct table)
    (time : clock.wall? = some now) (overdue : Overdue now table id value) :
    get clock id table = (.error (excuse value), table) ∧
      status clock id table = (.error (excuse value), table) ∧
      (excuse value = .notFound ↔
        ∃ secret, Secret.decode (value.drop deadlineSize) = .ok secret) ∧
      Durable.delete clock id table = (.ok false, table.erase id) ∧
      (table.erase id).find? id = none ∧
      ∀ count, (Durable.purge clock table).1 = .ok count →
        count = (table.erase id).countP (isDue now) + 1 ∧
          (Durable.purge clock table).2.find? id = none := by
  have read := wall_of_wall? time
  have loaded := overdue.load read
  refine ⟨Prod.ext loaded rfl, ?_, excuse_eq_notFound_iff, overdue.delete read,
    Shelf.find?_erase_self table id, ?_⟩
  · rw [status, loaded]
    rfl
  · intro count purged
    exact overdue.purge distinct read purged

/-- A deadline of long ago with nothing behind it. -/
def emptied : Bytes := List.replicate deadlineSize 0

def emptiedRows : Durable := [(.zero, emptied), (⟨Sized.filled 16 255⟩, emptied)]

theorem excuse_emptied :
    excuse emptied =
      .record "serialization error: EOF while parsing a value at line 1 column 0" := by
  decide +kernel

theorem distinct_emptiedRows : Shelf.Distinct emptiedRows := by
  unfold Shelf.Distinct
  decide

theorem overdue_emptied : Overdue 1700000000 emptiedRows .zero emptied :=
  ⟨by decide, by decide, by decide⟩

/-- One of two such rows is told by a look-up, and counted and cleared away by a purge. -/
theorem emptied_row_is_cleared_away :
    Shelf.Distinct emptiedRows ∧ Clock.wall? (.start 1700000000) = some 1700000000 ∧
      Overdue 1700000000 emptiedRows .zero emptied ∧
      (get (.start 1700000000) .zero emptiedRows).1 = .error (excuse emptied) ∧
      (purge (.start 1700000000) emptiedRows).1 = .ok 2 ∧
      (purge (.start 1700000000) emptiedRows).2.find? .zero = none := by
  have time : Clock.wall? (.start 1700000000) = some 1700000000 := by decide
  obtain ⟨got, -, -, -, -, purges⟩ :=
    overdue_is_absent_but_for_its_record distinct_emptiedRows time overdue_emptied
  have two : (purge (.start 1700000000) emptiedRows).1 = .ok 2 := by decide
  exact ⟨distinct_emptiedRows, time, overdue_emptied, congrArg Prod.fst got, two, (purges 2 two).2⟩

/-- Where nothing stands behind the deadline, both look-ups fail for another reason than absence. -/
theorem emptied_row_is_not_absent :
    ¬ ∀ (clock : Clock) (now : Nat) (table : Durable) (id : SecretId) (value : Bytes),
      Shelf.Distinct table → clock.wall? = some now → Overdue now table id value →
      (get clock id table).1 = .error .notFound ∧ (status clock id table).1 = .error .notFound := by
  intro every
  have time : Clock.wall? (.start 1700000000) = some 1700000000 := by decide
  have loaded : load (.start 1700000000) .zero emptiedRows = .error (excuse emptied) :=
    overdue_emptied.load (wall_of_wall? time)
  obtain ⟨absent, -⟩ := every _ _ _ _ _ distinct_emptiedRows time overdue_emptied
  have same : excuse emptied = .notFound := Except.error.inj (loaded.symm.trans absent)
  rw [excuse_emptied] at same
  cases same

end Durable

end DeadDrop.Store
