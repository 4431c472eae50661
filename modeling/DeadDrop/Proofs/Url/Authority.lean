import DeadDrop.Url.Parse

/-!
Authorities end at the first slash. What is read of one depends on nothing behind it, and a special
scheme does not go without a host, so a text in which an authority was found can be continued.
-/

namespace DeadDrop.Url

variable {scheme chars : List Char}

section Cuts

variable {p : Char → Bool}

theorem takeWhile_append_of_stopped (front : List Char) {back : List Char}
    (stopped : back.takeWhile p = []) : (front ++ back).takeWhile p = front.takeWhile p := by
  induction front with
  | nil => exact stopped
  | cons c rest ih =>
      rw [List.cons_append, List.takeWhile_cons, List.takeWhile_cons, ih]

theorem dropWhile_append_of_stopped (front : List Char) {back : List Char}
    (stopped : back.dropWhile p = back) :
    (front ++ back).dropWhile p = front.dropWhile p ++ back := by
  induction front with
  | nil => exact stopped
  | cons c rest ih =>
      rw [List.cons_append, List.dropWhile_cons, List.dropWhile_cons, ih]
      split <;> rfl

theorem dropWhile_append_of_shown {front back : List Char} (shown : front.dropWhile p ≠ []) :
    (front ++ back).dropWhile p = front.dropWhile p ++ back := by
  rw [List.dropWhile_append, if_neg (by rwa [List.isEmpty_iff])]

end Cuts

theorem mem_of_splitPort {inside : Bool} {chars host digits : List Char}
    (split : splitPort inside chars = (host, some digits)) : ∀ c ∈ digits, c ∈ chars := by
  induction chars generalizing inside host with
  | nil => cases split
  | cons c rest ih =>
      rw [splitPort] at split
      split at split
      · cases split
        exact fun c member => List.mem_cons_of_mem _ member
      · obtain ⟨_, port⟩ := Prod.mk.inj split
        intro c member
        exact List.mem_cons_of_mem _ (ih (Prod.ext rfl port) c member)

theorem mem_of_portValue {value port : Nat} {chars left : List Char}
    (read : portValue value chars = .ok (port, left)) : ∀ c ∈ left, c ∈ chars := by
  induction chars generalizing value with
  | nil => cases read; exact fun c member => member
  | cons c rest ih =>
      rw [portValue] at read
      split at read
      · dsimp only at read
        split at read
        · cases read
        · exact fun c member => List.mem_cons_of_mem _ (ih read c member)
      · split at read
        · cases read
          exact fun c member => member
        · cases read

theorem mem_of_splitUser {chars user rest : List Char}
    (split : splitUser chars = some (user, rest)) : ∀ c ∈ rest, c ∈ chars := by
  unfold splitUser at split
  split at split
  · cases split
  · cases split
    intro c member
    exact List.mem_reverse.mp ((List.takeWhile_sublist _).mem (List.mem_reverse.mp member))

/-- The authority in a text that holds nothing else, and what is left of its port. -/
def readWhole [Names] (scheme whole : List Char) : Except Fault (Authority × List Char) := do
  let (user, hostAndPort) := (splitUser whole).getD ([], whole)
  let (name, password) := cut ':' user
  let escape := Percent.encode escapedInUser
  let (hostChars, port) := splitPort false hostAndPort
  let host ← readHost (isSpecial scheme) hostChars
  if host = .name [] ∧ port.isSome then throw .emptyHost
  let (port, left) ← match port with
    | some digits => readPort scheme digits
    | none => pure (none, [])
  let authority : Authority := ⟨escape name, escape (password.getD []), host, port⟩
  if host = .name [] ∧ (authority.user ≠ [] ∨ authority.password ≠ []) then throw .emptyHost
  return (authority, left)

def inside (scheme : List Char) (c : Char) : Bool := !endsAuthority (isSpecial scheme) c

theorem readAuthority_eq [Names] (scheme chars : List Char) :
    readAuthority scheme chars =
      let whole := chars.takeWhile (inside scheme)
      let after := chars.dropWhile (inside scheme)
      let (user, hostAndPort) := (splitUser whole).getD ([], whole)
      if (splitUser whole).isSome ∧ hostAndPort = [] ∧ after ≠ [] ∧ user = [] then
        .error .emptyHost
      else (readWhole scheme whole).map fun (authority, left) => ⟨authority, left ++ after⟩ := by
  unfold readAuthority readWhole inside
  dsimp only
  rcases (splitUser (chars.takeWhile fun c => !endsAuthority (isSpecial scheme) c)).getD
    ([], chars.takeWhile fun c => !endsAuthority (isSpecial scheme) c) with ⟨user, hostAndPort⟩
  dsimp only
  rcases cut ':' user with ⟨name, password⟩
  rcases splitPort false hostAndPort with ⟨hostChars, port⟩
  simp only [bind, Except.bind, pure, Except.pure, throw, throwThe, MonadExceptOf.throw]
  split
  · rfl
  · cases readHost (isSpecial scheme) hostChars with
    | error fault => rfl
    | ok host =>
        dsimp only
        split
        · rfl
        · rcases port with _ | digits
          · dsimp only
            split <;> rfl
          · dsimp only
            cases readPort scheme digits with
            | error fault => rfl
            | ok read =>
                dsimp only
                split <;> rfl

/-- A special scheme wants a host, so what is empty behind the user fails in any case. -/
theorem readWhole_of_hostless [Names] {whole : List Char} (special : isSpecial scheme = true)
    (none : ((splitUser whole).getD ([], whole)).2 = []) :
    readWhole scheme whole = .error .emptyHost := by
  unfold readWhole
  generalize (splitUser whole).getD ([], whole) = parts at none ⊢
  obtain ⟨user, hostAndPort⟩ := parts
  cases none
  rw [special]
  rfl

theorem mem_of_readPort {digits left : List Char} {port : Option Nat}
    (read : readPort scheme digits = .ok (port, left)) : ∀ c ∈ left, c ∈ digits := by
  rw [readPort] at read
  cases value : portValue 0 digits with
  | error fault => rw [value] at read; cases read
  | ok taken =>
      rw [value] at read
      cases read
      exact mem_of_portValue value

theorem mem_of_readWhole [Names] {whole left : List Char} {authority : Authority}
    (read : readWhole scheme whole = .ok (authority, left)) : ∀ c ∈ left, c ∈ whole := by
  have host : ∀ c ∈ ((splitUser whole).getD ([], whole)).2, c ∈ whole := by
    cases split : splitUser whole with
    | none => exact fun c member => member
    | some parts => exact mem_of_splitUser split
  unfold readWhole at read
  generalize (splitUser whole).getD ([], whole) = parts at host read
  obtain ⟨user, hostAndPort⟩ := parts
  dsimp only at host read
  rcases divided : splitPort false hostAndPort with ⟨hostChars, port⟩
  rw [divided] at read
  simp only [bind, Except.bind, pure, Except.pure, throw, throwThe, MonadExceptOf.throw] at read
  cases port with
  | none =>
      repeat' split at read
      all_goals try contradiction
      cases read
      exact fun c member => nomatch member
  | some digits =>
      cases taken : readPort scheme digits with
      | error fault =>
          simp only [taken] at read
          repeat' split at read
          all_goals contradiction
      | ok found =>
          simp only [taken] at read
          repeat' split at read
          all_goals try contradiction
          cases read
          intro c member
          exact host c (mem_of_splitPort divided c (mem_of_readPort taken c member))

variable {body tail : List Char} {front : Front}

theorem readAuthority_append [Names] (special : isSpecial scheme = true)
    (read : readAuthority scheme (body ++ tail) = .ok front) (closes : tail = [] ∨ tail = ['/'])
    (others : List Char) :
    ∃ left, '#' ∉ left ∧ readAuthority scheme (body ++ '/' :: others) =
      .ok ⟨front.authority, left ++ (body.dropWhile (inside scheme) ++ '/' :: others)⟩ := by
  have slash : inside scheme '/' = false := rfl
  have before : (body ++ tail).takeWhile (inside scheme) = body.takeWhile (inside scheme) := by
    apply takeWhile_append_of_stopped
    rcases closes with rfl | rfl <;> rfl
  have first : (body ++ '/' :: others).takeWhile (inside scheme) =
      body.takeWhile (inside scheme) := takeWhile_append_of_stopped body rfl
  have later : (body ++ '/' :: others).dropWhile (inside scheme) =
      body.dropWhile (inside scheme) ++ '/' :: others := dropWhile_append_of_stopped body rfl
  rw [readAuthority_eq, before] at read
  dsimp only at read
  split at read
  · cases read
  · cases parsed : readWhole scheme (body.takeWhile (inside scheme)) with
    | error fault => rw [parsed] at read; cases read
    | ok found =>
        obtain ⟨authority, left⟩ := found
        rw [parsed] at read
        cases read
        have hosted : ((splitUser (body.takeWhile (inside scheme))).getD
            ([], body.takeWhile (inside scheme))).2 ≠ [] := by
          intro none
          rw [readWhole_of_hostless special none] at parsed
          cases parsed
        refine ⟨left, ?_, ?_⟩
        · intro mark
          have among := List.all_eq_true.mp List.all_takeWhile _ (mem_of_readWhole parsed _ mark)
          cases among
        · rw [readAuthority_eq, first, later]
          dsimp only
          rw [if_neg fun all => hosted all.2.1, parsed]
          rfl

end DeadDrop.Url
