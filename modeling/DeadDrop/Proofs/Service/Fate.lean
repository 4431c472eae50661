import DeadDrop.Proofs.Service.Delivery

/-!
What becomes of a secret while its time lasts. As long as nobody took it, it is there to be read;
once somebody did, nobody else can, and nothing is left under its id. So it was taken once, or it
still waits.
-/

namespace DeadDrop

open Store (Ledger Deposit Book Sighting Keeps)

namespace Service

section Takings

theorem Event.sightings_of_takes {event : Event} {id : SecretId} (takes : event.takes id = true) :
    ∃ front, event.sightings = front ++ [.removed id true] := by
  cases event with
  | retrieved other reply =>
      cases reply with
      | error error => cases takes
      | ok secret =>
          simp only [Event.takes, Bool.and_eq_true, decide_eq_true_eq] at takes
          obtain ⟨rfl, once⟩ := takes
          exact ⟨[.seen other secret], by simp [Event.sightings, once]⟩
  | deleted other reply =>
      cases reply with
      | error error => cases takes
      | ok existed =>
          simp only [Event.takes, Bool.and_eq_true, decide_eq_true_eq] at takes
          obtain ⟨rfl, rfl⟩ := takes
          exact ⟨[], rfl⟩
  | _ => cases takes

theorem Event.takes_of_unfound {event : Event} {id : SecretId}
    (unfound : ∀ sighting ∈ event.sightings, sighting.finds id = false) :
    event.takes id = false := by
  cases takes : event.takes id with
  | false => rfl
  | true =>
      obtain ⟨front, told⟩ := Event.sightings_of_takes takes
      have never := unfound (.removed id true) (by rw [told]; simp)
      simp [Sighting.finds] at never

variable {now : Nat} {before later : List Event} {taker : Event} {id : SecretId} {secret : Secret}

/-- After somebody took a secret nobody takes it again, and nothing is left. -/
theorem gone_after_taking
    (explained : (Book.opened now).Explains (reports (before ++ taker :: later)))
    (fresh : FreshIds (before ++ taker :: later)) (created : .created secret (.ok id) ∈ before)
    (takes : taker.takes id = true) :
    (∀ event ∈ later, event.takes id = false) ∧
      ((Book.opened now).after (reports (before ++ taker :: later))).live id = none := by
  -- The last thing that a taking tells is the removal, and nothing is found after a removal.
  obtain ⟨front, told⟩ := Event.sightings_of_takes takes
  have rows : reports (before ++ taker :: later) =
      (reports before ++ front) ++ .removed id true :: reports later := by
    simp [reports, told]
  have fresh' := reports_fresh fresh
  have stored : .stored id secret ∈ reports before ++ front :=
    List.mem_append_left _ (stored_mem_reports.mpr created)
  rw [rows] at explained fresh' ⊢
  constructor
  · intro event member
    apply Event.takes_of_unfound
    intro sighting here
    exact Book.not_finds_after_removed explained fresh' stored sighting
      (List.mem_flatMap.mpr ⟨event, member, here⟩)
  · rw [List.append_cons] at fresh'
    have never := fresh'.not_stored_later (List.mem_append_left _ stored)
    let book := (Book.opened now).after (reports before ++ front)
    have gone : ((book.record (.removed id true)).after (reports later)).live id = none :=
      Book.dead_after (Book.live_record_removed book id true) never
    rw [Book.after_append]
    exact gone

/-- While its time lasts, a secret waits until it is taken, and it is taken once. -/
theorem waits_or_taken_once
    (explained : (Book.opened now).Explains (reports (before ++ .created secret (.ok id) :: later)))
    (fresh : FreshIds (before ++ .created secret (.ok id) :: later))
    (young : elapsed later < Deposit.lifespan secret) :
    let book := (Book.opened now).after (reports (before ++ .created secret (.ok id) :: later))
    ((book.live id).map Deposit.secret = some secret ∧ later.countP (Event.takes id) = 0) ∨
      (book.live id = none ∧ later.countP (Event.takes id) = 1) := by
  intro book
  by_cases taken : ∃ taker ∈ later, taker.takes id = true
  · right
    obtain ⟨taker, member, takes⟩ := taken
    have some : 0 < later.countP (Event.takes id) := List.countP_pos_iff.mpr ⟨taker, member, takes⟩
    -- Whichever event takes the secret, the ones behind it do not.
    have once : later.countP (Event.takes id) ≤ 1 := by
      apply countP_le_one
      intro early event late split took
      subst split
      have created : .created secret (.ok id) ∈ before ++ [.created secret (.ok id)] ++ early := by
        simp
      rw [List.append_cons, ← List.append_assoc] at explained fresh
      exact (gone_after_taking explained fresh created took).1
    refine ⟨?_, Nat.le_antisymm once some⟩
    obtain ⟨early, late, rfl⟩ := List.append_of_mem member
    have created : .created secret (.ok id) ∈ before ++ [.created secret (.ok id)] ++ early := by
      simp
    have rows : before ++ .created secret (.ok id) :: (early ++ taker :: late) =
        (before ++ [.created secret (.ok id)] ++ early) ++ taker :: late := by simp
    rw [rows] at explained fresh
    have gone := (gone_after_taking explained fresh created takes).2
    rwa [← rows] at gone
  · left
    have untaken : ∀ event ∈ later, event.takes id = false := by
      intro event member
      exact Bool.eq_false_iff.mpr fun takes => taken ⟨event, member, takes⟩
    refine ⟨live_of_outstanding explained fresh ⟨before, later, rfl, untaken, young⟩, ?_⟩
    rw [List.countP_eq_zero]
    intro event member
    rw [untaken event member]
    exact Bool.false_ne_true

end Takings

section Reading

variable {State Seed : Type} {shows : Nat → State → Ledger → Prop} {service : Service State Seed}
  {world : World State Seed} {book : Book} {id : SecretId} {secret : Secret}

theorem retrieve_of_live (keeps : Keeps service.store False shows)
    (tracks : Tracks shows world book)
    (live : (book.live id).map Deposit.secret = some secret) :
    (service.retrieve id world).1 = .ok secret := by
  obtain ⟨now, ledger⟩ := book
  obtain ⟨rfl, shown⟩ := tracks
  obtain ⟨left, answered, -⟩ := answered_of_settles (retrieve_settles keeps id shown)
  obtain ⟨deposit, here, rfl⟩ := Option.map_eq_some_iff.mp live
  have here' : ledger.live world.clock.elapsed id = some deposit := here
  rw [answered, Ledger.reading, here']

theorem retrieve_of_dead (keeps : Keeps service.store False shows)
    (tracks : Tracks shows world book) (dead : book.live id = none) :
    (service.retrieve id world).1 = .error .notFound := by
  obtain ⟨now, ledger⟩ := book
  obtain ⟨rfl, shown⟩ := tracks
  obtain ⟨left, answered, -⟩ := answered_of_settles (retrieve_settles keeps id shown)
  have gone : ledger.live world.clock.elapsed id = none := dead
  rw [answered, Ledger.reading, gone]

end Reading

end Service

end DeadDrop
