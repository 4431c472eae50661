import DeadDrop.Proofs.Url.Authority
import DeadDrop.Proofs.Url.Percent

/-!
What reading a URL leaves in its parts.
-/

namespace DeadDrop.Url

variable {scheme chars : List Char} {url : Url}

section Cleaning

theorem isEdge_of_isBreak {c : Char} (breaks : isBreak c = true) : isEdge c = true := by
  simp only [isBreak, Bool.or_eq_true, decide_eq_true_eq] at breaks
  rcases breaks with (rfl | rfl) | rfl <;> decide

theorem isBreak_of_shown {c : Char} (shown : isEdge c = false) : isBreak c = false := by
  apply eq_false_of_ne_true
  intro breaks
  rw [isEdge_of_isBreak breaks] at shown
  cases shown

theorem cleaned_of_shown {chars : List Char} (shown : ∀ c ∈ chars, isEdge c = false) :
    cleaned chars = chars := by
  have kept (others : List Char) (shown : ∀ c ∈ others, isEdge c = false) :
      others.dropWhile isEdge = others := by
    cases others with
    | nil => rfl
    | cons c rest =>
        exact List.dropWhile_cons_of_neg (by rw [shown c List.mem_cons_self]; decide)
  have back : ∀ c ∈ chars.reverse, isEdge c = false :=
    fun c member => shown c (List.mem_reverse.mp member)
  rw [cleaned, trimEdges, kept chars shown, kept chars.reverse back, List.reverse_reverse,
    List.filter_eq_self]
  intro c member
  rw [isBreak_of_shown (shown c member)]
  rfl

end Cleaning

section Paths

variable [Names]

theorem scheme_of_withAuthority (read : withAuthority scheme chars = .ok url) :
    url.scheme = scheme := by
  rw [withAuthority] at read
  cases front : readAuthority scheme chars with
  | error fault => rw [front] at read; cases read
  | ok front =>
      rw [front] at read
      cases read
      rfl

theorem path_of_withAuthority (read : withAuthority scheme chars = .ok url)
    (special : isSpecial scheme = true) :
    ∃ text, url.path = .segments (readItems true false text) := by
  rw [withAuthority] at read
  cases front : readAuthority scheme chars with
  | error fault => rw [front] at read; cases read
  | ok front =>
      rw [front] at read
      cases read
      simp only [special, Bool.not_true, Bool.false_and, Bool.false_eq_true, if_false]
      exact ⟨_, rfl⟩

theorem fileUrl_of_readFile (read : readFile chars = .ok url) :
    ∃ host text, url = fileUrl host (parts true text) := by
  rw [readFile] at read
  split at read
  · dsimp only at read
    split at read
    · cases read
      exact ⟨_, _, rfl⟩
    · cases named : Host.read ((chars.drop 2).takeWhile fun c => !endsFileHost c) with
      | error fault => rw [named] at read; cases read
      | ok host =>
          rw [named] at read
          cases read
          exact ⟨_, _, rfl⟩
  · cases read
    exact ⟨_, _, rfl⟩

theorem scheme_of_readOther (read : readOther scheme chars = .ok url) :
    url.scheme = scheme := by
  unfold readOther at read
  split at read
  · exact scheme_of_withAuthority read
  · cases read
    rfl
  · cases read
    rfl

end Paths

section Marks

variable {mark : Char} {front rest : List Char}

theorem cut_append (free : mark ∉ front) (rest : List Char) :
    (cut mark (front ++ rest)).2 = (cut mark rest).2 := by
  have passed : ∀ c ∈ front, decide (c ≠ mark) = true := by
    intro c member
    exact decide_eq_true fun same => free (same ▸ member)
  unfold cut
  rw [List.dropWhile_append_of_pos passed]
  split <;> rfl

theorem cut_append_marked (mark : Char) (front rest : List Char) :
    ∃ before, (cut mark (front ++ mark :: rest)).2 = some (before ++ rest) := by
  by_cases inside : mark ∈ front
  · obtain ⟨before, after, rfl, free⟩ := List.eq_append_cons_of_mem inside
    refine ⟨after ++ [mark], ?_⟩
    rw [List.append_assoc, cut_append free]
    simp [cut]
  · refine ⟨[], ?_⟩
    rw [cut_append inside]
    simp [cut]

theorem cut_dropWhile (kept : Char → Bool) (stops : kept mark = false) (chars : List Char) :
    (cut mark (chars.dropWhile kept)).2 = (cut mark chars).2 := by
  have free : mark ∉ chars.takeWhile kept := by
    intro among
    have inside := List.all_eq_true.mp List.all_takeWhile mark among
    rw [stops] at inside
    cases inside
  have whole := List.takeWhile_append_dropWhile (p := kept) (l := chars)
  rw [← whole, cut_append free, whole]

theorem cut_rest_of_splitScheme (split : splitScheme chars = some (scheme, rest)) :
    (cut '#' rest).2 = (cut '#' chars).2 := by
  match chars, split with
  | first :: more, split =>
      rw [splitScheme] at split
      split at split
      · split at split
        · next behind =>
            cases split
            rw [← cut_dropWhile isSchemeChar (by decide) (first :: more), behind]
            exact (cut_append (show '#' ∉ [':'] by decide) rest).symm
        · cases split
      · cases split

variable [Names]

theorem cut_rest_of_readAuthority {front : Front}
    (read : readAuthority scheme chars = .ok front) :
    (cut '#' front.rest).2 = (cut '#' chars).2 := by
  have stops : inside scheme '#' = false := rfl
  rw [readAuthority_eq] at read
  dsimp only at read
  split at read
  · cases read
  · cases parsed : readWhole scheme (chars.takeWhile (inside scheme)) with
    | error fault => rw [parsed] at read; cases read
    | ok found =>
        obtain ⟨authority, left⟩ := found
        rw [parsed] at read
        cases read
        -- What the port leaves over stood inside the authority, which a mark ends.
        have free : '#' ∉ left := by
          intro mark
          have among := List.all_eq_true.mp List.all_takeWhile _ (mem_of_readWhole parsed _ mark)
          cases among
        rw [cut_append free, cut_dropWhile _ stops]

theorem fragment_of_withAuthority (read : withAuthority scheme chars = .ok url) :
    url.fragment = (cut '#' chars).2.map (Percent.encode escapedInFragment) := by
  rw [withAuthority] at read
  cases front : readAuthority scheme chars with
  | error fault => rw [front] at read; cases read
  | ok front' =>
      rw [front] at read
      cases read
      rw [← cut_rest_of_readAuthority front]
      rfl

theorem fragment_of_readOther (read : readOther scheme chars = .ok url) :
    url.fragment = (cut '#' chars).2.map (Percent.encode escapedInFragment) := by
  unfold readOther at read
  split at read
  · next rest =>
      rw [fragment_of_withAuthority read]
      exact congrArg _ (cut_append (show '#' ∉ ['/', '/'] by decide) rest).symm
  · cases read
    rfl
  · cases read
    rfl

theorem fragment_of_readFile (read : readFile chars = .ok url) :
    url.fragment = (cut '#' chars).2.map (Percent.encode escapedInFragment) := by
  rw [readFile] at read
  split at read
  · next slashes =>
      have free : '#' ∉ chars.take 2 := by
        intro among
        have mapped := List.mem_map_of_mem (f := fun c => if c = '\\' then '/' else c) among
        rw [slashed, if_pos rfl] at slashes
        rw [slashes] at mapped
        revert mapped
        decide
      have same : (cut '#' (chars.drop 2)).2 = (cut '#' chars).2 := by
        rw [← cut_append free, List.take_append_drop]
      dsimp only at read
      split at read
      · cases read
        rw [← same]
        rfl
      · cases named : Host.read ((chars.drop 2).takeWhile fun c => !endsFileHost c) with
        | error fault => rw [named] at read; cases read
        | ok host =>
            rw [named] at read
            cases read
            rw [← same, ← cut_dropWhile (fun c => !endsFileHost c) rfl]
            rfl
  · cases read
    rfl

theorem fragment_of_parseChars (parsed : parseChars chars = .ok url) :
    url.fragment = (cut '#' (cleaned chars)).2.map (Percent.encode escapedInFragment) := by
  rw [parseChars] at parsed
  split at parsed
  · cases parsed
  · next scheme rest divided =>
      rw [← cut_rest_of_splitScheme divided]
      split at parsed
      · exact fragment_of_readFile parsed
      · split at parsed
        · rw [fragment_of_withAuthority parsed, cut_dropWhile isSlash rfl]
        · exact fragment_of_readOther parsed

theorem unescaped_of_mem_fragment (parsed : parseChars chars = .ok url) :
    ∀ c ∈ url.fragment.getD [], escapedInFragment c = false := by
  rw [fragment_of_parseChars parsed]
  cases (cut '#' (cleaned chars)).2 with
  | none => nofun
  | some behind => exact Percent.unescaped_of_mem_encode (by decide) (by decide)

end Marks

section Pages

def IsWeb (scheme : List Char) : Prop := scheme = "http".toList ∨ scheme = "https".toList

theorem IsWeb.isSpecial (web : IsWeb scheme) : isSpecial scheme = true := by
  rcases web with rfl | rfl <;> decide

theorem IsWeb.not_isFile (web : IsWeb scheme) : isFile scheme = false := by
  rcases web with rfl | rfl <;> decide

theorem IsWeb.path [Names] (web : IsWeb url.scheme) (parsed : parseChars chars = .ok url) :
    ∃ text, url.path = .segments (readItems true false text) := by
  rw [parseChars] at parsed
  split at parsed
  · cases parsed
  · next scheme rest _ =>
      split at parsed
      · next file =>
          obtain ⟨host, text, rfl⟩ := fileUrl_of_readFile parsed
          have other := web.not_isFile
          cases other
      · split at parsed
        · next special => exact path_of_withAuthority parsed special
        · next plain =>
            rw [scheme_of_readOther parsed] at web
            exact absurd web.isSpecial plain

end Pages

end DeadDrop.Url
