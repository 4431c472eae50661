import DeadDrop.Text.Blank
import Mathlib.Data.List.TakeWhile

/-!
A text put together from lines, or from items behind separators, splits into these again. Trimming
leaves alone what does not end in a blank.
-/

namespace DeadDrop.Text

theorem forall_of_all {holds : Char → Prop} [DecidablePred holds] {chars : List Char}
    (all : chars.all (holds ·) = true) : ∀ c ∈ chars, holds c :=
  fun c member => of_decide_eq_true (List.all_eq_true.mp all c member)

namespace Blank

section Splitting

variable {separator : Char} {piece : List Char}

theorem go_eq (chars piece : List Char) (done : List (List Char)) :
    splitOn.go separator chars piece done =
      done.reverse ++ splitOn.go separator chars piece [] := by
  induction chars generalizing piece done with
  | nil => simp [splitOn.go]
  | cons c rest ih =>
      by_cases here : c = separator
      · simp only [splitOn.go, if_pos here]
        rw [ih [] (piece.reverse :: done), ih [] [piece.reverse]]
        simp
      · simp only [splitOn.go, if_neg here]
        exact ih _ _

theorem go_append (clean : separator ∉ piece) (rest begun : List Char) :
    splitOn.go separator (piece ++ rest) begun [] =
      splitOn.go separator rest (piece.reverse ++ begun) [] := by
  induction piece generalizing begun with
  | nil => rfl
  | cons c tail ih =>
      have other : c ≠ separator := fun same => clean (same ▸ List.mem_cons_self)
      have clean' : separator ∉ tail := fun member => clean (List.mem_cons_of_mem _ member)
      simp only [List.cons_append, splitOn.go, if_neg other]
      rw [ih clean']
      simp

theorem splitOn_append (clean : separator ∉ piece) (rest : List Char) :
    splitOn separator (piece ++ separator :: rest) = piece :: splitOn separator rest := by
  rw [splitOn, go_append clean]
  simp only [splitOn.go, if_true]
  rw [go_eq]
  simp [splitOn]

theorem splitOn_of_clean (clean : separator ∉ piece) : splitOn separator piece = [piece] := by
  have whole := go_append clean [] []
  rw [List.append_nil] at whole
  rw [splitOn, whole]
  simp [splitOn.go]

theorem splitOn_items (clean : separator ∉ piece) {items : List (List Char)}
    (others : ∀ item ∈ items, separator ∉ item) :
    splitOn separator (piece ++ items.flatMap fun item => separator :: item) = piece :: items := by
  induction items generalizing piece with
  | nil => rw [List.flatMap_nil, List.append_nil, splitOn_of_clean clean]
  | cons item rest ih =>
      obtain ⟨first, later⟩ := List.forall_mem_cons.mp others
      rw [List.flatMap_cons, List.cons_append, splitOn_append clean, ih first later]

theorem splitOn_path {items : List (List Char)} (clean : ∀ item ∈ items, separator ∉ item) :
    splitOn separator (items.flatMap fun item => separator :: item) = [] :: items :=
  splitOn_items List.not_mem_nil clean

theorem mem_of_mem_go {chars begun : List Char} (clean : separator ∉ begun)
    (member : piece ∈ splitOn.go separator chars begun []) :
    separator ∉ piece ∧ ∀ c ∈ piece, c ∈ begun ∨ c ∈ chars := by
  induction chars generalizing begun with
  | nil =>
      obtain rfl : piece = begun.reverse := by simpa [splitOn.go] using member
      simp [clean]
  | cons c rest ih =>
      by_cases here : c = separator
      · simp only [splitOn.go, if_pos here] at member
        rw [go_eq] at member
        rcases List.mem_append.mp member with first | later
        · obtain rfl : piece = begun.reverse := by simpa using first
          exact ⟨by simpa using clean, fun d found => .inl (List.mem_reverse.mp found)⟩
        · obtain ⟨free, inside⟩ := ih List.not_mem_nil later
          have behind d (found : d ∈ piece) := (inside d found).resolve_left List.not_mem_nil
          exact ⟨free, fun d found => .inr (List.mem_cons_of_mem c (behind d found))⟩
      · simp only [splitOn.go, if_neg here] at member
        have clean' : separator ∉ c :: begun :=
          List.not_mem_cons_of_ne_of_not_mem (Ne.symm here) clean
        obtain ⟨free, inside⟩ := ih clean' member
        constructor
        · exact free
        · intro d found
          rcases inside d found with taken | later
          · rcases List.mem_cons.mp taken with rfl | before
            · exact .inr List.mem_cons_self
            · exact .inl before
          · exact .inr (List.mem_cons_of_mem c later)

theorem mem_of_mem_splitOn {chars : List Char} (member : piece ∈ splitOn separator chars) :
    separator ∉ piece ∧ ∀ c ∈ piece, c ∈ chars := by
  obtain ⟨free, inside⟩ := mem_of_mem_go List.not_mem_nil member
  exact ⟨free, fun c found => (inside c found).resolve_left List.not_mem_nil⟩

theorem go_head (separator : Char) (chars : List Char) :
    ∃ more others, ∀ piece,
      splitOn.go separator chars piece [] = (piece.reverse ++ more) :: others := by
  induction chars with
  | nil => exact ⟨[], [], fun piece => by simp [splitOn.go]⟩
  | cons c rest ih =>
      obtain ⟨more, others, shape⟩ := ih
      by_cases here : c = separator
      · refine ⟨[], splitOn separator rest, fun piece => ?_⟩
        simp only [splitOn.go, if_pos here]
        rw [go_eq]
        simp [splitOn]
      · refine ⟨c :: more, others, fun piece => ?_⟩
        simp [splitOn.go, here, shape]

theorem splitOn_begun (separator : Char) (rest : List Char) :
    ∃ more others, ∀ piece, separator ∉ piece →
      splitOn separator (piece ++ rest) = (piece ++ more) :: others := by
  obtain ⟨more, others, shape⟩ := go_head separator rest
  refine ⟨more, others, fun piece clean => ?_⟩
  rw [splitOn, go_append clean, shape]
  simp

theorem eq_of_go {chars begun : List Char} {others : List (List Char)}
    (split : splitOn.go separator chars begun [] = piece :: others) :
    begun.reverse ++ chars = piece ++ others.flatMap fun item => separator :: item := by
  induction chars generalizing begun piece others with
  | nil =>
      obtain ⟨rfl, rfl⟩ : begun.reverse = piece ∧ [] = others := by
        simpa [splitOn.go] using split
      simp
  | cons c rest ih =>
      by_cases here : c = separator
      · obtain ⟨first, later, shape⟩ := go_head separator rest
        simp only [splitOn.go, if_pos here] at split
        rw [go_eq, shape []] at split
        obtain ⟨rfl, rfl⟩ := List.cons.inj split
        have tail : rest = first ++ later.flatMap fun item => separator :: item := ih (shape [])
        rw [tail, here]
        simp
      · simp only [splitOn.go, if_neg here] at split
        rw [← ih split]
        simp

theorem eq_of_splitOn {chars : List Char} {others : List (List Char)}
    (split : splitOn separator chars = piece :: others) :
    chars = piece ++ others.flatMap fun item => separator :: item :=
  eq_of_go split

theorem splitOn_part {part text : List Char} (cut : part <+: text) :
    ∀ short ∈ splitOn separator part, ∃ whole ∈ splitOn separator text, short <+: whole := by
  obtain ⟨missing, rfl⟩ := cut
  have begun (piece : List Char) : ∀ short ∈ splitOn.go separator part piece [],
      ∃ whole ∈ splitOn.go separator (part ++ missing) piece [], short <+: whole := by
    induction part generalizing piece with
    | nil =>
        intro short member
        obtain ⟨more, others, shape⟩ := go_head separator missing
        have same : short = piece.reverse := by simpa [splitOn.go] using member
        rw [same, List.nil_append, shape piece]
        exact ⟨_, List.mem_cons_self, List.prefix_append _ _⟩
    | cons c rest ih =>
        intro short member
        by_cases here : c = separator
        · simp only [List.cons_append, splitOn.go, if_pos here] at member ⊢
          rw [go_eq] at member ⊢
          rcases List.mem_append.mp member with done | later
          · exact ⟨short, List.mem_append_left _ done, List.prefix_refl short⟩
          · obtain ⟨whole, among, front⟩ := ih [] short later
            exact ⟨whole, List.mem_append_right _ among, front⟩
        · simp only [List.cons_append, splitOn.go, if_neg here] at member ⊢
          exact ih (c :: piece) short member
  exact begun []

end Splitting

theorem mem_splitOn_of_mem_lines {chars line : List Char} (member : line ∈ lines chars) :
    line ∈ splitOn '\n' chars := by
  unfold lines at member
  split at member
  · next others shape =>
      rw [← List.reverse_reverse (splitOn '\n' chars), shape]
      simp only [List.mem_reverse, List.reverse_cons, List.mem_append] at member ⊢
      exact .inl member
  · rw [List.reverse_reverse] at member
    exact member

theorem trimEnd_front (line : List Char) : trimEnd line <+: line := by
  have back : line.reverse.dropWhile isBlank <:+ line.reverse := List.dropWhile_suffix _
  rw [← List.reverse_prefix, List.reverse_reverse] at back
  exact back

theorem splitOn_ended {all : List (List Char)} (clean : ∀ line ∈ all, '\n' ∉ line)
    (rest : List Char) :
    splitOn '\n' ((all.flatMap fun line => line ++ ['\n']) ++ rest) = all ++ splitOn '\n' rest := by
  induction all with
  | nil => rfl
  | cons line others ih =>
      obtain ⟨here, later⟩ := List.forall_mem_cons.mp clean
      rw [List.flatMap_cons, List.append_assoc, List.append_assoc, List.singleton_append,
        splitOn_append here, ih later]
      rfl

theorem splitOn_lines {all : List (List Char)} {last : List Char}
    (clean : ∀ line ∈ all, '\n' ∉ line) (begun : '\n' ∉ last) :
    splitOn '\n' ((all.flatMap fun line => line ++ ['\n']) ++ last) = all ++ [last] := by
  rw [splitOn_ended clean, splitOn_of_clean begun]

theorem lines_append {all : List (List Char)} (clean : ∀ line ∈ all, '\n' ∉ line)
    (rest : List Char) :
    lines ((all.flatMap fun line => line ++ ['\n']) ++ rest) = all ++ lines rest := by
  obtain ⟨more, others, shape⟩ := go_head '\n' rest
  have some : (splitOn '\n' rest).reverse ≠ [] := by
    rw [splitOn, shape, ne_eq, List.reverse_eq_nil_iff]
    exact List.cons_ne_nil _ _
  rw [lines, lines, splitOn_ended clean, List.reverse_append]
  generalize (splitOn '\n' rest).reverse = back at some
  match back, some with
  | [] :: _, _ => simp
  | (_ :: _) :: _, _ => simp

theorem lines_flatMap {all : List (List Char)} (clean : ∀ line ∈ all, '\n' ∉ line) :
    lines (all.flatMap fun line => line ++ ['\n']) = all := by
  have ended := lines_append clean []
  rwa [List.append_nil, show lines [] = [] from rfl, List.append_nil] at ended

theorem splitOn_separated {separator : Char} (front back : List Char) :
    splitOn separator (front ++ separator :: back) =
      splitOn separator front ++ splitOn separator back := by
  have begun (piece : List Char) : splitOn.go separator (front ++ separator :: back) piece [] =
      splitOn.go separator front piece [] ++ splitOn separator back := by
    induction front generalizing piece with
    | nil =>
        simp only [List.nil_append, splitOn.go, if_true]
        rw [go_eq]
        rfl
    | cons c rest ih =>
        by_cases here : c = separator
        · simp only [List.cons_append, splitOn.go, if_pos here]
          rw [go_eq, go_eq rest, ih, List.append_assoc]
        · simp only [List.cons_append, splitOn.go, if_neg here, ih]
  exact begun []

theorem splitOn_ne_nil (separator : Char) (chars : List Char) : splitOn separator chars ≠ [] := by
  obtain ⟨more, others, shape⟩ := splitOn_begun separator chars
  rw [← List.nil_append chars, shape [] List.not_mem_nil]
  exact List.cons_ne_nil _ _

theorem lines_ended (all : List (List Char)) :
    lines (all.flatMap fun text => text ++ ['\n']) = all.flatMap (splitOn '\n') := by
  have pieces : splitOn '\n' (all.flatMap fun text => text ++ ['\n']) =
      all.flatMap (splitOn '\n') ++ [[]] := by
    induction all with
    | nil => rfl
    | cons text rest ih =>
        rw [List.flatMap_cons, List.append_assoc, List.singleton_append, splitOn_separated, ih,
          List.flatMap_cons, List.append_assoc]
  rw [lines, pieces]
  simp

theorem flatMap_splitOn_clean {all : List (List Char)} (clean : ∀ line ∈ all, '\n' ∉ line) :
    all.flatMap (splitOn '\n') = all := by
  induction all with
  | nil => rfl
  | cons line rest ih =>
      obtain ⟨here, later⟩ := List.forall_mem_cons.mp clean
      rw [List.flatMap_cons, splitOn_of_clean here, ih later, List.singleton_append]

theorem trimEnd_append (front : List Char) {back : List Char}
    (shown : ∃ c ∈ back, isBlank c = false) :
    trimEnd (front ++ back) = front ++ trimEnd back := by
  have left : back.reverse.dropWhile isBlank ≠ [] := by
    intro none
    obtain ⟨c, member, clear⟩ := shown
    have blank := List.dropWhile_eq_nil_iff.mp none c (List.mem_reverse.mpr member)
    rw [clear] at blank
    cases blank
  rw [trimEnd, trimEnd, List.reverse_append, List.dropWhile_append,
    if_neg (by simpa using left), List.reverse_append, List.reverse_reverse]

theorem trimEnd_append_blank (front : List Char) {back : List Char}
    (blank : ∀ c ∈ back, isBlank c = true) : trimEnd (front ++ back) = trimEnd front := by
  have gone : back.reverse.dropWhile isBlank = [] :=
    List.dropWhile_eq_nil_iff.mpr fun c member => blank c (List.mem_reverse.mp member)
  rw [trimEnd, List.reverse_append, List.dropWhile_append, gone]
  rfl

theorem trimEnd_concat {c : Char} (front : List Char) (shown : isBlank c = false) :
    trimEnd (front ++ [c]) = front ++ [c] := by
  simp [trimEnd, shown]

theorem trimEnd_of_shown {line : List Char} (shown : ∀ c ∈ line, isBlank c = false) :
    trimEnd line = line := by
  rcases List.eq_nil_or_concat line with rfl | ⟨front, c, rfl⟩
  · rfl
  · rw [List.concat_eq_append] at shown ⊢
    exact trimEnd_concat front (shown c (List.mem_append_right _ List.mem_cons_self))

end Blank

end DeadDrop.Text
