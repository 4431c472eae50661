import DeadDrop.Proofs.Store.Ledger
import Mathlib.Algebra.GroupWithZero.Nat
import Mathlib.Data.List.Basic

/-!
A book is a ledger with the moment it has come to. It is kept from sightings: what somebody
outside a store gets to know from one operation of it. A book explains a row of sightings if each
of them is what the ledger shows at its turn. What is dead in a book stays dead until it is stored
again, so nothing in an explained row finds it; what is neither removed nor too old is still there.
-/

namespace DeadDrop.Store

inductive Sighting where
  | stored (id : SecretId) (secret : Secret)
  | seen (id : SecretId) (secret : Secret)
  | missed (id : SecretId)
  | removed (id : SecretId) (existed : Bool)
  | passed (nanoseconds : Nat)
  deriving DecidableEq

namespace Sighting

def storedId? : Sighting → Option SecretId
  | stored id _ => some id
  | _ => none

def finds (id : SecretId) : Sighting → Bool
  | seen other _ => other = id
  | removed other existed => other = id && existed
  | _ => false

def span : Sighting → Nat
  | passed nanoseconds => nanoseconds
  | _ => 0

def elapsed (sightings : List Sighting) : Nat := (sightings.map span).sum

def Fresh (sightings : List Sighting) : Prop := (sightings.filterMap storedId?).Nodup

variable {sightings before later : List Sighting} {id : SecretId} {secret other : Secret}

theorem Fresh.not_stored_later (fresh : Fresh (before ++ later))
    (stored : .stored id secret ∈ before) : ∀ other, .stored id other ∉ later := by
  intro other again
  have apart := (List.pairwise_append.mp (List.pairwise_filterMap.mp fresh)).2.2
  exact apart _ stored _ again id rfl id rfl rfl

theorem Fresh.not_stored_again (fresh : Fresh (before ++ .stored id secret :: later)) :
    ∀ other, .stored id other ∉ later := by
  rw [List.append_cons] at fresh
  exact fresh.not_stored_later (List.mem_append_right _ (List.mem_singleton.mpr rfl))

theorem Fresh.secret_eq (fresh : Fresh sightings) (one : .stored id secret ∈ sightings)
    (two : .stored id other ∈ sightings) : secret = other := by
  obtain ⟨before, later, rfl⟩ := List.append_of_mem one
  rcases List.mem_append.mp two with early | late
  · exact absurd List.mem_cons_self (fresh.not_stored_later early secret)
  · rcases List.mem_cons.mp late with same | late
    · cases same
      rfl
    · exact absurd late (fresh.not_stored_again other)

theorem fresh_flatMap {Tale : Type} {tells : Tale → List Sighting}
    {names : Tale → Option SecretId} {tales : List Tale}
    (agree : ∀ tale, (tells tale).filterMap storedId? = (names tale).toList)
    (fresh : (tales.filterMap names).Nodup) : Fresh (tales.flatMap tells) := by
  have same : (tales.flatMap tells).filterMap storedId? = tales.filterMap names := by
    rw [List.filterMap_flatMap, List.filterMap_eq_flatMap_toList]
    simp only [agree]
  rw [Fresh, same]
  exact fresh

end Sighting

structure Book where
  now : Nat
  ledger : Ledger

namespace Book

def opened (now : Nat) : Book := ⟨now, .empty⟩

def live (book : Book) : Ledger := book.ledger.live book.now

def record (book : Book) : Sighting → Book
  | .stored id secret => { book with ledger := book.ledger.enter id ⟨secret, book.now⟩ }
  | .removed id _ => { book with ledger := book.ledger.strike id }
  | .passed nanoseconds => { book with now := book.now + nanoseconds }
  | .seen _ _ | .missed _ => book

def after (book : Book) (sightings : List Sighting) : Book := sightings.foldl record book

def Bears (book : Book) : Sighting → Prop
  | .seen id secret => (book.live id).map Deposit.secret = some secret
  | .missed id => book.live id = none
  | .removed id existed => existed = (book.live id).isSome
  | .stored _ _ | .passed _ => True

def Explains : Book → List Sighting → Prop
  | _, [] => True
  | book, sighting :: rest => book.Bears sighting ∧ Explains (book.record sighting) rest

theorem after_append (book : Book) (before later : List Sighting) :
    book.after (before ++ later) = (book.after before).after later :=
  List.foldl_append

theorem explains_append {book : Book} {before later : List Sighting} :
    book.Explains (before ++ later) ↔
      book.Explains before ∧ (book.after before).Explains later := by
  induction before generalizing book with
  | nil => simp [Explains, after]
  | cons sighting rest ih => simp [Explains, after, ih, and_assoc]

theorem live_record {book : Book} {sighting : Sighting} {id : SecretId} {deposit : Deposit}
    (alive : (book.record sighting).live id = some deposit) :
    book.live id = some deposit ∨ sighting = .stored id deposit.secret := by
  cases sighting with
  | stored other secret =>
      simp only [record, live, Ledger.live_enter] at alive
      split at alive
      · next same =>
          have new := Option.eq_some_of_filter_eq_some alive
          cases new
          exact Or.inr (by rw [same])
      · exact Or.inl alive
  | seen other secret => exact Or.inl alive
  | missed other => exact Or.inl alive
  | removed other existed =>
      simp only [record, live, Ledger.live_strike] at alive
      split at alive
      · cases alive
      · exact Or.inl alive
  | passed nanoseconds =>
      simp only [record, live] at alive
      rw [Ledger.live_later (Nat.le_add_right book.now nanoseconds)] at alive
      exact Or.inl (Option.eq_some_of_filter_eq_some alive)

theorem live_after {book : Book} {sightings : List Sighting} {id : SecretId} {deposit : Deposit}
    (alive : (book.after sightings).live id = some deposit) :
    book.live id = some deposit ∨ .stored id deposit.secret ∈ sightings := by
  induction sightings generalizing book with
  | nil => exact Or.inl alive
  | cons sighting rest ih =>
      rcases ih alive with here | later
      · rcases live_record here with before | now
        · exact Or.inl before
        · exact Or.inr (List.mem_cons.mpr (Or.inl now.symm))
      · exact Or.inr (List.mem_cons_of_mem sighting later)

theorem stored_of_live {now : Nat} {sightings : List Sighting} {id : SecretId}
    {deposit : Deposit} (alive : ((opened now).after sightings).live id = some deposit) :
    .stored id deposit.secret ∈ sightings := by
  rcases live_after alive with start | stored
  · cases start
  · exact stored

theorem dead_after {book : Book} {sightings : List Sighting} {id : SecretId}
    (dead : book.live id = none) (fresh : ∀ secret, .stored id secret ∉ sightings) :
    (book.after sightings).live id = none := by
  cases shown : (book.after sightings).live id with
  | none => rfl
  | some deposit =>
      rcases live_after shown with start | stored
      · rw [dead] at start
        cases start
      · exact absurd stored (fresh deposit.secret)

theorem live_record_removed (book : Book) (id : SecretId) (existed : Bool) :
    (book.record (.removed id existed)).live id = none := by
  simp [record, live, Ledger.live_strike]

theorem isSome_of_finds {book : Book} {sighting : Sighting} {id : SecretId}
    (borne : book.Bears sighting) (found : sighting.finds id = true) :
    (book.live id).isSome = true := by
  cases sighting with
  | stored other secret => cases found
  | seen other secret =>
      have same : other = id := by simpa [Sighting.finds] using found
      subst same
      cases shown : book.live other with
      | none => simp [Bears, shown] at borne
      | some deposit => rfl
  | missed other => cases found
  | removed other existed =>
      simp only [Sighting.finds, Bool.and_eq_true, decide_eq_true_eq] at found
      rw [← found.1, ← borne, found.2]
  | passed nanoseconds => cases found

theorem not_finds_of_dead {book : Book} {sightings : List Sighting} {id : SecretId}
    (dead : book.live id = none) (explained : book.Explains sightings)
    (fresh : ∀ secret, .stored id secret ∉ sightings) :
    ∀ sighting ∈ sightings, sighting.finds id = false := by
  intro sighting member
  obtain ⟨before, later, rfl⟩ := List.append_of_mem member
  have borne := (explains_append.mp explained).2.1
  have still : (book.after before).live id = none :=
    dead_after dead fun secret early => fresh secret (List.mem_append_left _ early)
  cases found : sighting.finds id with
  | false => rfl
  | true =>
      have alive := isSome_of_finds borne found
      rw [still] at alive
      cases alive

-- The induction carries that the ledger holds the deposit; that it is live follows from its age.
theorem live_after_of_kept {book : Book} {sightings : List Sighting} {id : SecretId}
    {deposit : Deposit} (held : book.ledger id = some deposit)
    (explained : book.Explains sightings) (fresh : ∀ secret, .stored id secret ∉ sightings)
    (kept : .removed id true ∉ sightings)
    (young : deposit.isLive (book.now + Sighting.elapsed sightings) = true) :
    (book.after sightings).live id = some deposit := by
  induction sightings generalizing book with
  | nil => exact Ledger.live_eq_some.mpr ⟨held, young⟩
  | cons sighting rest ih =>
      obtain ⟨borne, explains⟩ := explained
      have alive : book.live id = some deposit :=
        Ledger.live_eq_some.mpr
          ⟨held, Deposit.isLive_earlier (Nat.le_add_right _ _) deposit young⟩
      have fresh' : ∀ secret, .stored id secret ∉ rest :=
        fun secret later => fresh secret (List.mem_cons_of_mem _ later)
      have kept' : .removed id true ∉ rest := fun later => kept (List.mem_cons_of_mem _ later)
      have time : book.now + Sighting.elapsed (sighting :: rest) =
          (book.record sighting).now + Sighting.elapsed rest := by
        cases sighting <;> simp [Sighting.elapsed, Sighting.span, record, Nat.add_assoc]
      refine ih ?_ explains fresh' kept' (time ▸ young)
      cases sighting with
      | stored other secret =>
          have apart : id ≠ other := by
            rintro rfl
            exact fresh secret List.mem_cons_self
          simp [record, Ledger.enter, apart, held]
      | seen other secret => exact held
      | missed other => exact held
      | removed other existed =>
          have apart : id ≠ other := by
            rintro rfl
            have existing : existed = true := by rw [borne, alive]; rfl
            subst existing
            exact kept List.mem_cons_self
          simp [record, Ledger.strike, apart, held]
      | passed nanoseconds => exact held

section Lives

open Sighting (Fresh)

variable {now : Nat} {before later : List Sighting} {id : SecretId} {secret : Secret}

theorem stored_of_seen
    (explained : (opened now).Explains (before ++ .seen id secret :: later)) :
    .stored id secret ∈ before := by
  have borne := (explains_append.mp explained).2.1
  cases shown : ((opened now).after before).live id with
  | none => simp [Bears, shown] at borne
  | some deposit =>
      simp only [Bears, shown, Option.map_some, Option.some.injEq] at borne
      subst borne
      exact stored_of_live shown

theorem stored_of_removed
    (explained : (opened now).Explains (before ++ .removed id true :: later)) :
    ∃ secret, .stored id secret ∈ before := by
  have borne := (explains_append.mp explained).2.1
  cases shown : ((opened now).after before).live id with
  | none => simp [Bears, shown] at borne
  | some deposit => exact ⟨deposit.secret, stored_of_live shown⟩

theorem not_finds_after_removed {existed : Bool}
    (explained : (opened now).Explains (before ++ .removed id existed :: later))
    (fresh : Fresh (before ++ .removed id existed :: later))
    (stored : .stored id secret ∈ before) :
    ∀ sighting ∈ later, sighting.finds id = false := by
  have explains := (explains_append.mp explained).2.2
  have fresh' := fresh.not_stored_later stored
  exact not_finds_of_dead (live_record_removed _ id existed) explains
    fun other again => fresh' other (List.mem_cons_of_mem _ again)

/-- A secret that was neither found by a removal nor too old in the end is there in the end. -/
theorem live_of_kept
    (explained : (opened now).Explains (before ++ .stored id secret :: later))
    (fresh : Fresh (before ++ .stored id secret :: later)) (kept : .removed id true ∉ later)
    (young : Sighting.elapsed later < Deposit.lifespan secret) :
    (((opened now).after (before ++ .stored id secret :: later)).live id).map Deposit.secret =
      some secret := by
  let book := (opened now).after before
  have explains : (book.record (.stored id secret)).Explains later :=
    (explains_append.mp explained).2.2
  have entered : (book.record (.stored id secret)).ledger id = some ⟨secret, book.now⟩ := by
    simp [record, Ledger.enter]
  have alive : ((book.record (.stored id secret)).after later).live id =
      some ⟨secret, book.now⟩ := by
    apply live_after_of_kept entered explains fresh.not_stored_again kept
    have age : book.now + Sighting.elapsed later - book.now = Sighting.elapsed later :=
      Nat.add_sub_cancel_left _ _
    simpa [Deposit.isLive, record, age] using young
  rw [after_append]
  exact congrArg (Option.map Deposit.secret) alive

end Lives

end Book

end DeadDrop.Store
