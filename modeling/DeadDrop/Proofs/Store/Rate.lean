import DeadDrop.Proofs.Store.Generator
import DeadDrop.Proofs.Store.Machine
import DeadDrop.Store.Memory

/-!
How often injected failures come. A run of the faulty store fails where its generator says, so two
runs from one seed fail alike, and among as many calls as the generator has states the share of
failures is the rate.
-/

namespace DeadDrop.Store.Faulty

variable {State : Type} {rate : Rat}

section Failures

def failed (rate : Rat) (store : Store State) :
    List (Clock × Query) → Faulty State → List Bool
  | [], _ => []
  | (clock, query) :: rest, first =>
      let last := (query.ask (faulty rate store) clock first).2
      (last.failures ≠ first.failures) :: failed rate store rest last

theorem failed_eq (store : Store State) (calls : List (Clock × Query)) (first : Faulty State) :
    failed rate store calls first = injections rate first.generator calls.length := by
  induction calls generalizing first with
  | nil => rfl
  | cons call rest ih =>
      obtain ⟨clock, query⟩ := call
      rw [List.length_cons, injections_succ, failed, ih]
      cases drawn : fails rate (next first.generator) with
      | true =>
          rw [ask_injected query drawn]
          simp
      | false =>
          rw [ask_passed query drawn]
          simp

end Failures

section Windows

theorem injections_eq_map (rate : Rat) (seed count : Nat) :
    injections rate seed count = (draws seed count).map (fails rate) := by
  rw [injections, draws, List.map_map]
  exact List.map_congr_left fun index _ => (fails_eq rate _).symm

theorem injections_congr {left right : Nat} (same : left % modulus = right % modulus)
    (count : Nat) : injections rate left count = injections rate right count := by
  simp only [injections, iterate_congr same]

theorem injections_drop (offset seed count : Nat) :
    (injections rate seed (offset + count)).drop offset =
      injections rate (next^[offset] seed) count := by
  induction offset generalizing seed with
  | zero => rw [Nat.zero_add, List.drop_zero, Function.iterate_zero, id_eq]
  | succ offset ih =>
      rw [Nat.succ_add, injections_succ, List.drop_succ_cons, ih, Function.iterate_succ_apply]

theorem injections_take (seed count more : Nat) :
    (injections rate seed (count + more)).take count = injections rate seed count := by
  rw [injections, ← List.map_take, List.take_range, Nat.min_eq_left (Nat.le_add_right count more)]
  rfl

theorem countP_range_lt (bound size : Nat) :
    (List.range size).countP (· < bound) = min bound size := by
  induction size with
  | zero => simp
  | succ size ih =>
      rw [List.range_succ, List.countP_append, ih]
      by_cases inside : size < bound
      · simp [inside]
        omega
      · simp [inside]
        omega

/-- So many of the states lie below the rate. -/
theorem count_injections (least : 0 ≤ rate) (most : rate ≤ 1) (seed : Nat) :
    ((injections rate seed modulus).count true : Int) = ⌈rate * modulus⌉ := by
  -- The states that fail are the first so many, and every state is drawn once.
  have below (state : Nat) : fails rate state = decide (state < ⌈rate * modulus⌉₊) := by
    rw [fails, decide_eq_decide, Nat.lt_ceil]
  have bound : ⌈rate * modulus⌉₊ ≤ modulus := by
    rw [Nat.ceil_le]
    exact mul_le_of_le_one_left modulus_pos.le most
  have drawn : (injections rate seed modulus).count true =
      (draws seed modulus).countP (fails rate) := by
    rw [injections_eq_map, List.count, List.countP_map]
    simp [Function.comp_def]
  rw [drawn, (draws_perm seed).countP_eq, funext below, countP_range_lt, Nat.min_eq_left bound]
  exact Int.natCast_ceil_eq_ceil (mul_nonneg least modulus_pos.le)

/-- Whatever was called before them. -/
theorem count_window (least : 0 ≤ rate) (most : rate ≤ 1) (seed : Nat) {offset total : Nat}
    (inside : offset + modulus ≤ total) :
    ((((injections rate seed total).drop offset).take modulus).count true : Int) =
      ⌈rate * modulus⌉ := by
  obtain ⟨more, rfl⟩ := Nat.le.dest inside
  rw [Nat.add_assoc, injections_drop, injections_take, count_injections least most]

end Windows

/-- Which calls fail depends on nothing but the rate, the seed modulo 2^32 and the count of calls.
Of any 2^32 calls in a row those fail that are the rate's share of them, rounded up. And words and
floating point come to the same calls as fractions do. -/
theorem rate_is_honoured :
    (∀ (rate : Rat) (Left Right : Type) (left : Store Left) (right : Store Right)
      (first : Left) (second : Right) (seed other : Nat) (calls others : List (Clock × Query)),
      seed % modulus = other % modulus → calls.length = others.length →
        failed rate left calls (start seed first) =
          failed rate right others (start other second)) ∧
    (∀ (rate : Rat) (State : Type) (store : Store State) (first : State) (seed offset : Nat)
      (calls : List (Clock × Query)), 0 ≤ rate → rate ≤ 1 → offset + modulus ≤ calls.length →
        let window := ((failed rate store calls (start seed first)).drop offset).take modulus
        (window.count true : Int) = ⌈rate * modulus⌉) ∧
    ∀ (x : Float) (rate : Rat), rateOf x = .ok rate →
      0 ≤ rate ∧ rate ≤ 1 ∧
        ∀ (State : Type) (store : Store State) (first : State) (seed : UInt64)
          (calls : List (Clock × Query)),
          failed rate store calls (start seed.toNat first) = rolls x seed calls.length := by
  refine ⟨?_, ?_, ?_⟩
  · intro rate Left Right left right first second seed other calls others same length
    rw [failed_eq, failed_eq, ← length]
    exact injections_congr same calls.length
  · intro rate State store first seed offset calls least most inside
    rw [failed_eq]
    exact count_window least most seed inside
  · intro x rate given
    obtain ⟨least, most⟩ := (rated given).bounds
    refine ⟨least, most, fun State store first seed calls => ?_⟩
    rw [failed_eq, rolls_eq given]
    rfl

/-- At a rate of one half. The second seed is the first one and the modulus. -/
theorem half_of_purges_fail :
    let calls : List (Clock × Query) := List.replicate modulus (Clock.start 0, .purge)
    let run (seed : Nat) := failed (1 / 2) memory calls (start seed Memory.empty)
    42 % modulus = (42 + modulus) % modulus ∧ run 42 = run (42 + modulus) ∧
      0 + modulus ≤ calls.length ∧
      ((((run 42).drop 0).take modulus).count true : Int) = 2147483648 ∧
      rateOf 0.5 = .ok (1 / 2) ∧ run 42 = rolls 0.5 42 calls.length := by
  intro calls run
  have same : 42 % modulus = (42 + modulus) % modulus := (Nat.add_mod_right 42 modulus).symm
  have whole : 0 + modulus ≤ calls.length := by
    rw [List.length_replicate, Nat.zero_add]
  have given : rateOf 0.5 = .ok (1 / 2) := by
    have exact : exactRate 0.5 = 1 / 2 := by decide +kernel
    rw [rateOf, if_pos (by decide +kernel), exact]
  have share : ⌈(1 / 2 : Rat) * modulus⌉ = 2147483648 := by
    rw [Int.ceil_eq_iff]
    norm_num [modulus, UInt32.size]
  obtain ⟨alike, counted, machine⟩ := rate_is_honoured
  obtain ⟨least, most, rolled⟩ := machine 0.5 (1 / 2) given
  have half := counted (1 / 2) Memory memory Memory.empty 42 0 calls least most whole
  rw [share] at half
  exact ⟨same, alike _ _ _ _ _ _ _ _ _ _ _ same rfl, whole, half, given,
    rolled Memory memory Memory.empty 42 calls⟩

end DeadDrop.Store.Faulty
