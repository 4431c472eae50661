import DeadDrop.Proofs.Text.Blank
import DeadDrop.Proofs.Url.Parse
import DeadDrop.Url.Extend
import Mathlib.Data.List.Infix

/-!
What is read into a path is plain: its segments hold no separator and nothing that would be escaped,
and none stands for a step up or for staying. Reading it again, or reading on from it, so takes
every segment as it is, and a slash at the end is one more segment, for the next text to fill.
-/

namespace DeadDrop.Url

open Text.Blank (splitOn)

structure IsPlain (item : List Char) : Prop where
  clean : ∀ c ∈ item, escapedInPath c = false ∧ c ≠ '/' ∧ c ≠ '\\'
  still : isDot item = false
  inside : isDoubleDot item = false

variable {item : List Char} {items done : List (List Char)}

section Dots

def dotted : List (List Char) :=
  [".".toList, "%2e".toList, "..".toList, "%2e.".toList, ".%2e".toList, "%2e%2e".toList]

theorem mem_dotted (dots : isDot item = true ∨ isDoubleDot item = true) :
    item.map Char.toLower ∈ dotted := by
  rcases dots with dot | double
  · simp only [isDot, Bool.or_eq_true, decide_eq_true_eq] at dot
    rcases dot with rfl | small
    · decide
    · rw [small]
      decide
  · have listed : ∀ word ∈ ["..".toList, "%2e.".toList, ".%2e".toList, "%2e%2e".toList],
        word ∈ dotted := by decide
    exact listed _ (List.contains_iff_mem.mp double)

theorem escapeOctet_not_infix {octet : UInt8} (other : octet ≠ 0x2E) {word : List Char}
    (dots : word ∈ dotted) : ¬(Percent.escapeOctet octet).map Char.toLower <:+: word := by
  intro inside
  obtain ⟨tail, front, behind⟩ := List.infix_iff_prefix_suffix.mp inside
  have marks : ∀ word ∈ dotted, ∀ tail ∈ word.tails, tail.head? = some '%' →
      tail.take 3 = "%2e".toList := by decide
  have first : tail.head? = some '%' := by
    obtain ⟨rest, rfl⟩ := front
    rfl
  have escape : (Percent.escapeOctet octet).map Char.toLower = "%2e".toList := by
    rw [← marks word dots tail ((List.mem_tails _ _).mpr behind) first]
    exact List.prefix_iff_eq_take.mp front
  have highs : ∀ nibble < 16, (Percent.digit nibble).toLower = '2' → nibble = 2 := by decide
  have lows : ∀ nibble < 16, (Percent.digit nibble).toLower = 'e' → nibble = 14 := by decide
  obtain ⟨high, low⟩ : (Percent.digit (octet.toNat / 16)).toLower = '2' ∧
      (Percent.digit (octet.toNat % 16)).toLower = 'e' := by
    simpa [Percent.escapeOctet] using escape
  have small := octet.toNat_lt
  have value : octet.toNat = 0x2E := by
    have upper := highs _ (by omega) high
    have lower := lows _ (by omega) low
    omega
  exact other (UInt8.toNat_inj.mp value)

theorem exists_other_octet {c : Char} (other : c ≠ '.') :
    ∃ octet ∈ String.utf8EncodeChar c, octet ≠ 0x2E := by
  by_cases small : c.toNat < 0x80
  · refine ⟨UInt8.ofNat c.toNat, ?_, ?_⟩
    · rw [Text.Utf8.utf8EncodeChar_of_ascii small]
      exact List.mem_singleton_self _
    · intro same
      have value := congrArg UInt8.toNat same
      rw [toNat_octet small] at value
      exact other (Char.toNat_inj.mp value)
  · obtain ⟨octet, member, large⟩ := Text.Utf8.exists_large_octet small
    refine ⟨octet, member, ?_⟩
    rintro rfl
    exact large (by decide)

/-- An escape in it keeps a text from standing for dots. -/
theorem encode_of_dots (dots : isDot (Percent.encode escapedInPath item) = true ∨
    isDoubleDot (Percent.encode escapedInPath item) = true) :
    Percent.encode escapedInPath item = item := by
  apply Percent.encode_of_unescaped
  intro c member
  by_contra escaped
  rw [Bool.not_eq_false] at escaped
  have other : c ≠ '.' := by
    rintro rfl
    cases escaped
  obtain ⟨octet, among, foreign⟩ := exists_other_octet other
  have octets : Percent.escapeOctet octet <:+: Percent.escapeChar c :=
    List.infix_of_mem_flatten (List.mem_map_of_mem among)
  have chars : Percent.escapeChar c <:+: Percent.encode escapedInPath item := by
    have here : Percent.escapeChar c ∈ item.map fun c =>
        if escapedInPath c then Percent.escapeChar c else [c] :=
      List.mem_map.mpr ⟨c, member, if_pos escaped⟩
    exact List.infix_of_mem_flatten here
  exact escapeOctet_not_infix foreign (mem_dotted dots) ((octets.trans chars).map Char.toLower)

end Dots

section Reading

theorem isPlain_nil : IsPlain [] := ⟨nofun, rfl, rfl⟩

theorem isPlain_encode (whole : ∀ c ∈ item, c ≠ '/' ∧ c ≠ '\\') (still : isDot item = false)
    (inside : isDoubleDot item = false) : IsPlain (Percent.encode escapedInPath item) := by
  have undotted : ¬(isDot (Percent.encode escapedInPath item) = true ∨
      isDoubleDot (Percent.encode escapedInPath item) = true) := by
    intro dots
    rw [encode_of_dots dots, still, inside] at dots
    rcases dots with dots | dots <;> cases dots
  rw [not_or, Bool.not_eq_true, Bool.not_eq_true] at undotted
  refine ⟨?_, undotted.1, undotted.2⟩
  intro d member
  refine ⟨Percent.unescaped_of_mem_encode (by decide) (by decide) d member, ?_⟩
  obtain ⟨c, among, written⟩ := List.mem_flatMap.mp member
  split at written
  · exact Percent.forall_mem_escapeChar (fun d => d ≠ '/' ∧ d ≠ '\\') (by decide) (by decide) c d
      written
  · rw [List.mem_singleton.mp written]
    exact whole c among

theorem mem_of_mem_shorten {file : Bool} (member : item ∈ shorten file done) : item ∈ done := by
  cases done with
  | nil => exact member
  | cons last others =>
      rw [shorten] at member
      split at member
      · exact member
      · exact List.mem_cons_of_mem _ member

theorem isPlain_of_mem_walk (whole : ∀ item ∈ items, ∀ c ∈ item, c ≠ '/' ∧ c ≠ '\\')
    (before : ∀ item ∈ done, IsPlain item) : ∀ item ∈ walk false done items, IsPlain item := by
  have stepped (done : List (List Char)) (before : ∀ item ∈ done, IsPlain item) :
      ∀ item ∈ shorten false done, IsPlain item :=
    fun item member => before item (mem_of_mem_shorten member)
  fun_induction walk false done items with
  | case1 done => exact before
  | case2 done last double =>
      exact List.forall_mem_cons.mpr ⟨isPlain_nil, stepped done before⟩
  | case3 done last single dot => exact List.forall_mem_cons.mpr ⟨isPlain_nil, before⟩
  | case4 done last single shown =>
      have plain := isPlain_encode (whole last List.mem_cons_self) (eq_false_of_ne_true shown)
        (eq_false_of_ne_true single)
      exact List.forall_mem_cons.mpr ⟨plain, before⟩
  | case5 done item rest more double ih =>
      exact ih (List.forall_mem_cons.mp whole).2 (stepped done before)
  | case6 done item rest more single dot ih => exact ih (List.forall_mem_cons.mp whole).2 before
  | case7 done item rest more single shown ih =>
      have plain := isPlain_encode (whole item List.mem_cons_self) (eq_false_of_ne_true shown)
        (eq_false_of_ne_true single)
      exact ih (List.forall_mem_cons.mp whole).2 (List.forall_mem_cons.mpr ⟨plain, before⟩)

theorem walk_ne_nil (some : items ≠ []) : walk false done items ≠ [] := by
  fun_induction walk false done items with
  | case1 done => exact absurd rfl some
  | case2 | case3 | case4 => exact List.cons_ne_nil _ _
  | case5 done item rest more double ih => exact ih more
  | case6 done item rest more single dot ih => exact ih more
  | case7 done item rest more single shown ih => exact ih more

theorem other_of_mem_slashed {chars : List Char} : ∀ c ∈ slashed true chars, c ≠ '\\' := by
  intro c member
  obtain ⟨d, -, rfl⟩ := List.mem_map.mp member
  split
  · decide
  · next other => exact other

theorem mem_of_mem_withoutSlash {chars : List Char} {c : Char} (member : c ∈ withoutSlash chars) :
    c ∈ chars := by
  unfold withoutSlash at member
  split at member
  · exact List.mem_cons_of_mem _ member
  · exact member

theorem isPlain_of_mem_readItems (chars : List Char) :
    ∀ item ∈ readItems true false chars, IsPlain item := by
  intro item member
  apply isPlain_of_mem_walk _ (by simp) item (List.mem_reverse.mp member)
  intro piece among c here
  obtain ⟨free, inside⟩ := Text.Blank.mem_of_mem_splitOn among
  constructor
  · exact fun same => free (same ▸ here)
  · exact other_of_mem_slashed c (mem_of_mem_withoutSlash (inside c here))

theorem readItems_ne_nil (chars : List Char) : readItems true false chars ≠ [] := by
  obtain ⟨more, others, shape⟩ :=
    Text.Blank.go_head '/' (withoutSlash (slashed true chars))
  have some : splitOn '/' (withoutSlash (slashed true chars)) ≠ [] := by
    rw [splitOn, shape []]
    exact List.cons_ne_nil _ _
  rw [readItems, ne_eq, List.reverse_eq_nil_iff]
  exact walk_ne_nil some

end Reading

section Standing

variable {chars : List Char}

theorem normalItem_of_plain {file : Bool} (plain : IsPlain item)
    (undriven : file = true → isDrive item = false) (done : List (List Char)) :
    normalItem file done item = item := by
  have kept : Percent.encode escapedInPath item = item :=
    Percent.encode_of_unescaped fun c member => (plain.clean c member).1
  have guard : (file && done.isEmpty && isDrive item) = false := by
    cases file with
    | false => rfl
    | true => rw [undriven rfl, Bool.and_false]
  simp only [normalItem, guard, Bool.false_eq_true, if_false, kept]

theorem walk_of_plain {file : Bool} (plain : ∀ item ∈ items, IsPlain item)
    (undriven : file = true → ∀ item ∈ items, isDrive item = false) (done : List (List Char)) :
    walk file done items = items.reverse ++ done := by
  fun_induction walk file done items with
  | case1 done => rfl
  | case2 done last double =>
      rw [(plain last List.mem_cons_self).inside] at double
      cases double
  | case3 done last single dot =>
      rw [(plain last List.mem_cons_self).still] at dot
      cases dot
  | case4 done last single shown =>
      rw [normalItem_of_plain (plain last List.mem_cons_self)
        fun isFile => undriven isFile last List.mem_cons_self]
      rfl
  | case5 done item rest more double ih =>
      rw [(plain item List.mem_cons_self).inside] at double
      cases double
  | case6 done item rest more single dot ih =>
      rw [(plain item List.mem_cons_self).still] at dot
      cases dot
  | case7 done item rest more single shown ih =>
      rw [ih (List.forall_mem_cons.mp plain).2 fun isFile =>
          (List.forall_mem_cons.mp (undriven isFile)).2,
        normalItem_of_plain (plain item List.mem_cons_self)
          fun isFile => undriven isFile item List.mem_cons_self]
      simp

theorem slashed_of_clean (special : Bool) (clean : '\\' ∉ chars) :
    slashed special chars = chars := by
  cases special with
  | false => rfl
  | true =>
      have kept : ∀ c ∈ chars, (if c = '\\' then '/' else c) = c := by
        intro c member
        rw [if_neg]
        rintro rfl
        exact clean member
      exact (List.map_congr_left kept).trans (List.map_id chars)

theorem isEdge_of_unescaped {c : Char} (unescaped : escapedInPath c = false) :
    isEdge c = false := by
  have edges : ∀ n < 0x21, escapedInPath (Char.ofNat n) = true := by decide
  rw [isEdge, decide_eq_false_iff_not]
  intro low
  have escaped := edges c.toNat (by omega)
  rw [Char.ofNat_toNat, unescaped] at escaped
  cases escaped

theorem of_mem_write (plain : ∀ item ∈ items, IsPlain item) :
    ∀ c ∈ (Path.segments items).write, escapedInPath c = false ∧ c ≠ '\\' := by
  intro c member
  obtain ⟨item, among, here⟩ := List.mem_flatMap.mp member
  rcases List.mem_cons.mp here with rfl | inside
  · decide
  · obtain ⟨unescaped, -, other⟩ := (plain item among).clean c inside
    exact ⟨unescaped, other⟩

theorem readItems_write (some : items ≠ []) (plain : ∀ item ∈ items, IsPlain item) :
    readItems true false (Path.segments items).write = items := by
  have whole : '\\' ∉ (Path.segments items).write :=
    fun member => (of_mem_write plain _ member).2 rfl
  have clean : ∀ item ∈ items, '/' ∉ item :=
    fun item among member => ((plain item among).clean _ member).2.1 rfl
  obtain ⟨first, rest, rfl⟩ := List.exists_cons_of_ne_nil some
  obtain ⟨here, later⟩ := List.forall_mem_cons.mp clean
  rw [readItems, slashed_of_clean true whole]
  have pieces : splitOn '/' (withoutSlash (Path.segments (first :: rest)).write) =
      first :: rest := Text.Blank.splitOn_items here later
  have undriven : false = true → ∀ item ∈ first :: rest, isDrive item = false :=
    fun drives => absurd drives Bool.false_ne_true
  rw [pieces, walk_of_plain plain undriven, List.append_nil, List.reverse_reverse]

end Standing

section Closing

/-- A path ends in an empty segment, which is what a slash at its end comes to. -/
def Path.IsClosed (path : Path) : Prop := ∃ front, path = .segments (front ++ [[]])

def slashEnded (path : List Char) : List Char :=
  if path.getLast? = some '/' then path else path ++ ['/']

variable {url : Url}

theorem closePath_scheme (url : Url) : url.closePath.scheme = url.scheme := by
  unfold closePath
  split <;> rfl

theorem setPath_write (web : IsWeb url.scheme) (path : url.path = .segments done)
    (some : items ≠ []) (plain : ∀ item ∈ items, IsPlain item) :
    url.setPath (Path.segments items).write = { url with path := .segments items } := by
  have unbroken : (Path.segments items).write.filter (fun c => !isBreak c) =
      (Path.segments items).write := by
    rw [List.filter_eq_self]
    intro c member
    rw [isBreak_of_shown (isEdge_of_unescaped (of_mem_write plain c member).1)]
    rfl
  simp only [setPath, unbroken, web.isSpecial, web.not_isFile, path, readItems_write some plain,
    Bool.false_eq_true, if_false]

theorem write_concat (front : List (List Char)) (last : List Char) :
    (Path.segments (front ++ [last])).write = (Path.segments front).write ++ '/' :: last := by
  simp [Path.write]

theorem getLast?_write_concat (front : List (List Char)) {last : List Char} (some : last ≠ []) :
    (Path.segments (front ++ [last])).write.getLast? = last.getLast? := by
  obtain ⟨c, rest, rfl⟩ := List.exists_cons_of_ne_nil some
  rw [write_concat, List.getLast?_append, List.getLast?_cons_cons,
    List.getLast?_eq_some_getLast (List.cons_ne_nil c rest), Option.some_or]

theorem closePath_eq (web : IsWeb url.scheme) (path : url.path = .segments items)
    (some : items ≠ []) (plain : ∀ item ∈ items, IsPlain item) :
    ∃ front, url.closePath = { url with path := .segments (front ++ [[]]) } ∧
      (Path.segments (front ++ [[]])).write = slashEnded url.path.write := by
  rcases List.eq_nil_or_concat items with rfl | ⟨front, last, rfl⟩
  · exact absurd rfl some
  · rw [List.concat_eq_append] at path plain
    rw [closePath, slashEnded, path]
    by_cases closed : last = []
    · subst closed
      have ends : (Path.segments (front ++ [[]])).write.getLast? = Option.some '/' := by
        rw [write_concat, List.getLast?_concat]
      rw [if_pos ends, if_pos ends]
      exact ⟨front, by rw [← path], rfl⟩
    · have ends : (Path.segments (front ++ [last])).write.getLast? ≠ Option.some '/' := by
        rw [getLast?_write_concat front closed]
        intro slash
        have member := List.mem_of_getLast? slash
        exact ((plain last (by simp)).clean '/' member).2.1 rfl
      rw [if_neg ends, if_neg ends, ← write_concat]
      have all : ∀ item ∈ front ++ [last] ++ [[]], IsPlain item := by
        intro item member
        rcases List.mem_append.mp member with old | new
        · exact plain item old
        · rw [List.mem_singleton.mp new]
          exact isPlain_nil
      exact ⟨front ++ [last], setPath_write web path (by simp) all, rfl⟩

end Closing

section Joining

variable {url : Url} {front : List (List Char)} {reference : List Char}

theorem write_splitOn (reference : List Char) :
    (Path.segments (splitOn '/' reference)).write = '/' :: reference := by
  obtain ⟨first, others, shape⟩ := Text.Blank.go_head '/' reference
  have split : splitOn '/' reference = first :: others := shape []
  rw [split, Path.write, List.flatMap_cons, List.cons_append, ← Text.Blank.eq_of_splitOn split]

theorem write_extended (front : List (List Char)) (reference : List Char) :
    (Path.segments (front ++ splitOn '/' reference)).write =
      (Path.segments (front ++ [[]])).write ++ reference := by
  have behind := write_splitOn reference
  simp only [Path.write, List.flatMap_append] at behind ⊢
  rw [behind]
  simp

theorem cut_of_clean {mark : Char} {chars : List Char} (clean : mark ∉ chars) :
    cut mark chars = (chars, none) := by
  have passed : chars.dropWhile (· ≠ mark) = [] :=
    List.dropWhile_eq_nil_iff.mpr fun c member =>
      decide_eq_true fun same => clean (same ▸ member)
  rw [cut, passed]

theorem of_mem_reference (plain : ∀ item ∈ splitOn '/' reference, IsPlain item) :
    ∀ c ∈ reference, escapedInPath c = false ∧ c ≠ '\\' := by
  intro c member
  apply of_mem_write plain
  rw [write_splitOn]
  exact List.mem_cons_of_mem _ member

theorem parts_of_plain (special : Bool) (plain : ∀ item ∈ splitOn '/' reference, IsPlain item) :
    parts special reference = ⟨reference, none, none⟩ := by
  have clean (mark : Char) (escaped : escapedInPath mark = true) : mark ∉ reference := by
    intro member
    have kept := (of_mem_reference plain mark member).1
    rw [escaped] at kept
    cases kept
  rw [parts, cut_of_clean (clean '#' (by decide))]
  dsimp only
  rw [cut_of_clean (clean '?' (by decide))]
  rfl

/-- A path that ends in a slash is kept in full by what is read on from it. -/
theorem join_eq (path : url.path = .segments (front ++ [[]]))
    (plain : ∀ item ∈ splitOn '/' reference, IsPlain item)
    (undriven : isFile url.scheme = true → ∀ item ∈ splitOn '/' reference, isDrive item = false) :
    url.join reference = .ok { url with
      path := .segments (front ++ splitOn '/' reference), query := none, fragment := none } := by
  have shown : cleaned reference = reference :=
    cleaned_of_shown fun c member => isEdge_of_unescaped (of_mem_reference plain c member).1
  have slashes (special : Bool) : slashed special reference = reference :=
    slashed_of_clean special fun member => (of_mem_reference plain _ member).2 rfl
  have kept (file : Bool) : shorten file (front ++ [[]]).reverse = front.reverse := by
    rw [List.reverse_concat]
    cases file <;> rfl
  rw [join, path]
  simp only [shown, parts_of_plain _ plain, slashes, kept, walk_of_plain plain undriven]
  rw [List.reverse_append, List.reverse_reverse, List.reverse_reverse]

end Joining

end DeadDrop.Url
