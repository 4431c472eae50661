import DeadDrop.Proofs.Text.Blank
import DeadDrop.Proofs.Url.Authority
import DeadDrop.Proofs.Url.Parse

/-!
A fragment behind the address of a page. Scheme and authority are read as those of the page, since
the slash in front of the fragment ends both, and the fragment is found as it was written, up to
its escapes.
-/

namespace DeadDrop.Url

open Text.Blank (isBlank trim trimStart trimEnd)

variable {scheme chars : List Char} {url : Url}

section Cleaning

variable {front tail : List Char}

/-- What is read of a text that ends in no blank. -/
def lead (front : List Char) : List Char := (front.dropWhile isEdge).filter fun c => !isBreak c

theorem cleaned_concat (front : List Char) {c : Char} (shown : isEdge c = false) :
    cleaned (front ++ [c]) = lead (front ++ [c]) := by
  have started : (front ++ [c]).dropWhile isEdge = front.dropWhile isEdge ++ [c] := by
    rw [List.dropWhile_append]
    split
    · rename_i none
      rw [List.isEmpty_iff.mp none, List.dropWhile_cons_of_neg (by rw [shown]; decide)]
      rfl
    · rfl
  rw [cleaned, trimEdges, lead, started, List.reverse_append, List.reverse_singleton,
    List.singleton_append, List.dropWhile_cons_of_neg (by rw [shown]; decide), List.reverse_cons,
    List.reverse_reverse]

theorem lead_append (shown : front.dropWhile isEdge ≠ []) (whole : ∀ c ∈ tail, isBreak c = false) :
    lead (front ++ tail) = lead front ++ tail := by
  have kept : (tail.filter fun c => !isBreak c) = tail :=
    List.filter_eq_self.mpr fun c member => by rw [whole c member]; rfl
  rw [lead, dropWhile_append_of_shown shown, List.filter_append, kept, lead]

theorem lead_of_dropWhile {first : Char} {more : List Char}
    (here : front.dropWhile isEdge = first :: more) : ∃ others, lead front = first :: others := by
  have shown := List.head?_dropWhile_not isEdge front
  rw [here] at shown
  have kept : (!isBreak first) = true := by
    rw [isBreak_of_shown shown]
    rfl
  rw [lead, here, List.filter_cons, if_pos kept]
  exact ⟨_, rfl⟩

end Cleaning

section Schemes

variable {rest : List Char}

theorem letter_of_splitScheme (split : splitScheme chars = some (scheme, rest)) :
    ∃ first more, chars = first :: more ∧ isAsciiLetter first = true := by
  match chars, split with
  | first :: more, split =>
      rw [splitScheme] at split
      split at split
      · rename_i letter
        exact ⟨first, more, rfl, letter⟩
      · cases split

theorem splitScheme_eq_some (split : splitScheme chars = some (scheme, rest)) :
    ∃ name, chars = name ++ ':' :: rest ∧
      ∀ others, splitScheme (name ++ ':' :: others) = some (scheme, others) := by
  match chars, split with
  | first :: more, split =>
      rw [splitScheme] at split
      split at split
      · rename_i letter
        split at split
        · rename_i behind
          cases split
          have schemeChar : isSchemeChar first = true := by rw [isSchemeChar, letter]; rfl
          have whole := List.takeWhile_append_dropWhile (p := isSchemeChar) (l := first :: more)
          rw [behind] at whole
          refine ⟨_, whole.symm, fun others => ?_⟩
          have inside : ∀ c ∈ (first :: more).takeWhile isSchemeChar, isSchemeChar c = true :=
            List.all_eq_true.mp List.all_takeWhile
          have mark : isSchemeChar ':' = false := by decide
          rw [List.takeWhile_cons_of_pos schemeChar] at inside ⊢
          rw [List.cons_append, splitScheme, if_pos letter, ← List.cons_append,
            List.takeWhile_append_of_pos inside, List.dropWhile_append_of_pos inside,
            List.dropWhile_cons_of_neg (by rw [mark]; decide),
            List.takeWhile_cons_of_neg (by rw [mark]; decide), List.append_nil]
          rfl
        · cases split
      · cases split

end Schemes

section Fragments

variable {front tail fragment : List Char}

theorem fragment_of_parts (special : Bool) {path : List Char} (clean : '#' ∉ path)
    (fragment : List Char) :
    (parts special (path ++ '#' :: fragment)).fragment =
      some (Percent.encode escapedInFragment fragment) := by
  have passed : ∀ c ∈ path, decide (c ≠ '#') = true := by
    intro c member
    exact decide_eq_true fun mark => clean (mark ▸ member)
  have divided : cut '#' (path ++ '#' :: fragment) = (path, some fragment) := by
    rw [cut, List.dropWhile_append_of_pos passed, List.takeWhile_append_of_pos passed,
      List.dropWhile_cons_of_neg (by decide), List.takeWhile_cons_of_neg (by decide),
      List.append_nil]
  rw [parts, divided]
  rfl

theorem withAuthority_append [Names] {body : List Char} (special : isSpecial scheme = true)
    (read : withAuthority scheme (body ++ tail) = .ok url) (closes : tail = [] ∨ tail = ['/'])
    (clean : '#' ∉ body) (fragment : List Char) :
    ∃ page, withAuthority scheme (body ++ '/' :: '#' :: fragment) = .ok page ∧
      page.fragment = some (Percent.encode escapedInFragment fragment) := by
  rw [withAuthority] at read
  cases authority : readAuthority scheme (body ++ tail) with
  | error fault => rw [authority] at read; cases read
  | ok before =>
      obtain ⟨left, free, again⟩ := readAuthority_append special authority closes ('#' :: fragment)
      have path : '#' ∉ left ++ (body.dropWhile (inside scheme) ++ ['/']) := by
        simp only [List.mem_append, List.mem_singleton, not_or]
        exact ⟨free, fun mark => clean ((List.dropWhile_sublist _).mem mark), by decide⟩
      have shape : left ++ (body.dropWhile (inside scheme) ++ '/' :: '#' :: fragment) =
          (left ++ (body.dropWhile (inside scheme) ++ ['/'])) ++ '#' :: fragment := by simp
      rw [withAuthority, again]
      refine ⟨_, rfl, ?_⟩
      dsimp only
      rw [shape]
      exact fragment_of_parts _ path fragment

theorem of_parseChars_web [Names] (parsed : parseChars chars = .ok url) (web : IsWeb url.scheme) :
    ∃ rest, splitScheme (cleaned chars) = some (url.scheme, rest) ∧
      withAuthority url.scheme (rest.dropWhile isSlash) = .ok url := by
  rw [parseChars] at parsed
  split at parsed
  · cases parsed
  · rename_i scheme rest divided
    split at parsed
    · obtain ⟨host, tail, rfl⟩ := fileUrl_of_readFile parsed
      cases web.not_isFile
    · split at parsed
      · rw [scheme_of_withAuthority parsed]
        exact ⟨rest, divided, parsed⟩
      · rename_i plain
        have special := web.isSpecial
        rw [scheme_of_readOther parsed] at special
        exact absurd special plain

theorem withAuthority_nil [Names] (special : isSpecial scheme = true) :
    withAuthority scheme [] = .error .emptyHost := by
  rw [withAuthority, readAuthority_eq]
  dsimp only
  rw [if_neg fun all => Option.isSome_none.symm.trans all.1 |> Bool.false_ne_true,
    List.takeWhile_nil, readWhole_of_hostless special rfl]
  rfl

/-- What reading makes of the address of a page. -/
structure Reads (front : List Char) (scheme : List Char) (body : List Char) : Prop where
  starts : ∃ first more, front.dropWhile isEdge = first :: more ∧ isAsciiLetter first = true
  part : ∀ c ∈ body, c ∈ front
  divided : ∀ others, splitScheme (lead front ++ others) = some (scheme, body ++ others)

theorem exists_reads (closes : tail = [] ∨ tail = ['/']) {c : Char} {init : List Char}
    (last : front ++ tail = init ++ [c]) (shown : isEdge c = false) {rest : List Char}
    (divided : splitScheme (cleaned (front ++ tail)) = some (scheme, rest)) :
    ∃ body, rest = body ++ tail ∧ Reads front scheme body := by
  have unbroken : ∀ c ∈ tail, isBreak c = false := by
    rcases closes with rfl | rfl
    · exact fun c member => nomatch member
    · intro c member
      rw [List.mem_singleton.mp member]
      decide
  rw [last, cleaned_concat init shown, ← last] at divided
  have started : front.dropWhile isEdge ≠ [] := by
    intro none
    rw [lead, List.dropWhile_append, if_pos (by rw [none]; rfl)] at divided
    rcases closes with rfl | rfl <;> cases divided
  rw [lead_append started unbroken] at divided
  have starts : ∃ first more, front.dropWhile isEdge = first :: more ∧
      isAsciiLetter first = true := by
    obtain ⟨first, more, here⟩ := List.exists_cons_of_ne_nil started
    obtain ⟨others, leads⟩ := lead_of_dropWhile here
    rw [leads, List.cons_append] at divided
    obtain ⟨_, _, same, letter⟩ := letter_of_splitScheme divided
    exact ⟨first, more, here, (List.cons.inj same).1 ▸ letter⟩
  obtain ⟨name, whole, same⟩ := splitScheme_eq_some divided
  have colon : ':' ∉ tail := by rcases closes with rfl | rfl <;> decide
  rcases List.append_eq_append_iff.mp whole with ⟨extra, shape, behind⟩ | ⟨extra, shape, behind⟩
  · exact absurd (behind ▸ List.mem_append_right extra List.mem_cons_self) colon
  · cases extra with
    | nil =>
        rw [List.nil_append] at behind
        rw [← behind] at colon
        exact absurd List.mem_cons_self colon
    | cons mark body =>
        obtain ⟨rfl, rfl⟩ := List.cons.inj behind
        refine ⟨body, rfl, starts, fun c member => ?_, fun others => ?_⟩
        · have among : c ∈ lead front := by
            rw [shape]
            exact List.mem_append_right name (List.mem_cons_of_mem _ member)
          exact (List.dropWhile_sublist _).mem (List.mem_filter.mp among).1
        · rw [shape, List.append_assoc, List.cons_append]
          exact same _

theorem isBlank_of_letter {c : Char} (letter : isAsciiLetter c = true) : isBlank c = false := by
  have range : (65 ≤ c.toNat ∧ c.toNat ≤ 90) ∨ (97 ≤ c.toNat ∧ c.toNat ≤ 122) := by
    simp only [isAsciiLetter, Bool.or_eq_true, Bool.and_eq_true, decide_eq_true_eq] at letter
    exact letter.symm
  simp only [isBlank, Bool.or_eq_false_iff, Bool.and_eq_false_iff, decide_eq_false_iff_not]
  omega

theorem Reads.dropWhile_trimStart {body : List Char} (reads : Reads front scheme body) :
    (trimStart front).dropWhile isEdge = front.dropWhile isEdge := by
  obtain ⟨first, more, here, letter⟩ := reads.starts
  have stopped : (first :: more).dropWhile isBlank = first :: more :=
    List.dropWhile_cons_of_neg (by rw [isBlank_of_letter letter]; decide)
  have kept : (first :: more).dropWhile isEdge = first :: more := by
    have shown := List.head?_dropWhile_not isEdge front
    rw [here] at shown
    exact List.dropWhile_cons_of_neg (by rw [shown]; decide)
  have edges : ∀ c ∈ (front.takeWhile isEdge).dropWhile isBlank, isEdge c = true :=
    fun c member => List.all_eq_true.mp List.all_takeWhile c ((List.dropWhile_sublist _).mem member)
  have front_eq : front = front.takeWhile isEdge ++ first :: more := by
    rw [← here, List.takeWhile_append_dropWhile]
  have trimmed : trimStart front = (front.takeWhile isEdge).dropWhile isBlank ++ first :: more := by
    have dropped := dropWhile_append_of_stopped (front.takeWhile isEdge) stopped
    rw [← front_eq] at dropped
    exact dropped
  rw [trimmed, List.dropWhile_append_of_pos edges, kept, here]

theorem Reads.shown {body : List Char} (reads : Reads front scheme body) :
    front.dropWhile isEdge ≠ [] := by
  obtain ⟨first, more, here, -⟩ := reads.starts
  rw [here]
  exact List.cons_ne_nil _ _

theorem Reads.unblank {body : List Char} (reads : Reads front scheme body) :
    front.dropWhile isBlank ≠ [] := by
  intro none
  have trimmed := reads.dropWhile_trimStart
  rw [trimStart, none] at trimmed
  exact reads.shown trimmed.symm

theorem Reads.trim_append {body : List Char} {d : Char} (reads : Reads front scheme body)
    (solid : isBlank d = false) (fragment : List Char) :
    trim (front ++ '/' :: '#' :: (fragment ++ [d])) =
      trimStart front ++ '/' :: '#' :: (fragment ++ [d]) := by
  have joined : front ++ '/' :: '#' :: (fragment ++ [d]) =
      front ++ (('/' :: '#' :: fragment) ++ [d]) := by simp
  rw [joined, trim, trimStart, dropWhile_append_of_shown reads.unblank, ← List.append_assoc,
    Text.Blank.trimEnd_concat _ solid, trimStart]
  simp

theorem Reads.splitScheme_append {body others : List Char} {d : Char}
    (reads : Reads front scheme body) (starts : others.dropWhile isEdge = front.dropWhile isEdge)
    (whole : ∀ c ∈ fragment ++ [d], isBreak c = false) (visible : isEdge d = false) :
    splitScheme (cleaned (others ++ '/' :: '#' :: (fragment ++ [d]))) =
      some (scheme, body ++ '/' :: '#' :: (fragment ++ [d])) := by
  have text : others ++ '/' :: '#' :: (fragment ++ [d]) =
      (others ++ '/' :: '#' :: fragment) ++ [d] := by simp
  have unbroken : ∀ c ∈ '/' :: '#' :: (fragment ++ [d]), isBreak c = false := by
    simp only [List.mem_cons, forall_eq_or_imp]
    exact ⟨by decide, by decide, whole⟩
  have leads : lead (others ++ '/' :: '#' :: (fragment ++ [d])) =
      lead front ++ '/' :: '#' :: (fragment ++ [d]) := by
    rw [lead_append (by rw [starts]; exact reads.shown) unbroken, lead, starts, lead]
  rw [text, cleaned_concat _ visible, ← text, leads, reads.divided]

/-- Where the page is read, the page with a fragment behind it is read, and it has that fragment.
A slash at the end of the page may be left out, and blanks in front of it do not count. -/
theorem parseChars_trim_append [Names] {init : List Char} {c d : Char}
    (parsed : parseChars (front ++ tail) = .ok url) (web : IsWeb url.scheme)
    (closes : tail = [] ∨ tail = ['/']) (clean : '#' ∉ front)
    (last : front ++ tail = init ++ [c]) (shown : isEdge c = false)
    (whole : ∀ c ∈ fragment ++ [d], isBreak c = false) (visible : isEdge d = false)
    (solid : isBlank d = false) :
    ∃ page, parseChars (trim (front ++ '/' :: '#' :: (fragment ++ [d]))) = .ok page ∧
      page.fragment = some (Percent.encode escapedInFragment (fragment ++ [d])) := by
  have special := web.isSpecial
  obtain ⟨rest, divided, read⟩ := of_parseChars_web parsed web
  obtain ⟨body, rfl, reads⟩ := exists_reads closes last shown divided
  have filled : body.dropWhile isSlash ≠ [] := by
    intro none
    have empty : (body ++ tail).dropWhile isSlash = [] := by
      rw [List.dropWhile_append, if_pos (by rw [none]; rfl)]
      rcases closes with rfl | rfl <;> rfl
    rw [empty, withAuthority_nil special] at read
    cases read
  have clear : '#' ∉ body.dropWhile isSlash := fun mark =>
    clean (reads.part _ ((List.dropWhile_sublist _).mem mark))
  rw [dropWhile_append_of_shown filled] at read
  obtain ⟨page, again, found⟩ := withAuthority_append special read closes clear (fragment ++ [d])
  refine ⟨page, ?_, found⟩
  rw [reads.trim_append solid, parseChars,
    reads.splitScheme_append reads.dropWhile_trimStart whole visible]
  dsimp only
  rw [if_neg (by rw [web.not_isFile]; decide), if_pos special,
    dropWhile_append_of_shown filled, again]

end Fragments

end DeadDrop.Url
