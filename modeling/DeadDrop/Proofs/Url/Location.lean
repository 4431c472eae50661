import DeadDrop.Proofs.Url.Fragment
import DeadDrop.Proofs.Url.Percent

/-!
Addresses of pages in the form that people write: a host of labels, perhaps a port, and segments of
a path that need no escape. Every one of them is read as a URL of its scheme. The letters keep the
host from being taken for a number, and the port is small enough for its digits to be taken in.
-/

namespace DeadDrop.Url

open Address (isDecimal)
open Text.Blank (splitOn)

def isLower (c : Char) : Bool := 'a' ≤ c && c ≤ 'z'

def isUnreserved (c : Char) : Bool :=
  isAsciiLetter c || isDecimal c || c = '-' || c = '.' || c = '_' || c = '~'

def decimalValue (digits : List Char) : Nat :=
  digits.foldl (fun value c => value * 10 + (c.toNat - 48)) 0

/-- The address of a page, in its parts. -/
structure Location where
  secure : Bool
  label : List Char
  labels : List (List Char)
  port : Option (List Char)
  segments : List (List Char)
  closed : Bool
  lettered : ∀ name ∈ label :: labels, name ≠ [] ∧ ∀ c ∈ name, isLower c = true
  numbered : ∀ digits, port = some digits →
    digits ≠ [] ∧ (∀ c ∈ digits, isDecimal c = true) ∧ decimalValue digits ≤ 65535
  unreserved : ∀ segment ∈ segments, ∀ c ∈ segment, isUnreserved c = true

namespace Location

def scheme (location : Location) : List Char :=
  if location.secure then "https".toList else "http".toList

def host (location : Location) : List Char :=
  location.label ++ location.labels.flatMap fun name => '.' :: name

def portText (location : Location) : List Char :=
  match location.port with
  | none => []
  | some digits => ':' :: digits

def pathText (location : Location) : List Char :=
  (location.segments.flatMap fun segment => '/' :: segment) ++ if location.closed then ['/'] else []

def write (location : Location) : List Char :=
  location.scheme ++ ':' :: '/' :: '/' :: (location.host ++ location.portText ++ location.pathText)

end Location

section Characters

variable {c : Char}

theorem forall_range (holds : Char → Prop) (first last : Nat)
    (all : ∀ n < last + 1 - first, holds (Char.ofNat (first + n))) (least : first ≤ c.toNat)
    (most : c.toNat ≤ last) : holds c := by
  have held := all (c.toNat - first) (by omega)
  rw [Nat.add_sub_cancel' least, Char.ofNat_toNat] at held
  exact held

theorem forall_lower (holds : Char → Prop) (all : ∀ n < 26, holds (Char.ofNat (97 + n)))
    (lower : isLower c = true) : holds c := by
  simp only [isLower, Bool.and_eq_true, decide_eq_true_eq] at lower
  exact forall_range holds 97 122 all lower.1 lower.2

theorem forall_decimal (holds : Char → Prop) (all : ∀ n < 10, holds (Char.ofNat (48 + n)))
    (decimal : isDecimal c = true) : holds c := by
  simp only [isDecimal, Bool.and_eq_true, decide_eq_true_eq] at decimal
  exact forall_range holds 48 57 all decimal.1 decimal.2

/-- Stands for itself in a host. -/
structure Named (c : Char) : Prop where
  ascii : c.toNat < 0x80
  unescaped : c ≠ '%'
  small : c.toLower = c
  allowed : forbidden c = false
  visible : isControl c = false

instance (c : Char) : Decidable (Named c) :=
  decidable_of_iff (c.toNat < 0x80 ∧ c ≠ '%' ∧ c.toLower = c ∧ forbidden c = false ∧
    isControl c = false)
    ⟨fun all => ⟨all.1, all.2.1, all.2.2.1, all.2.2.2.1, all.2.2.2.2⟩,
      fun named => ⟨named.1, named.2, named.3, named.4, named.5⟩⟩

theorem Named.ne {d : Char} (named : Named c) (broken : forbidden d = true) : c ≠ d := by
  rintro rfl
  rw [named.allowed] at broken
  cases broken

theorem large_of_unreserved (unreserved : isUnreserved c = true) : 45 ≤ c.toNat := by
  simp only [isUnreserved, isAsciiLetter, isDecimal, Bool.or_eq_true, Bool.and_eq_true,
    decide_eq_true_eq] at unreserved
  rcases unreserved with (((((⟨least, -⟩ | ⟨least, -⟩) | ⟨least, -⟩) | rfl) | rfl) | rfl) | rfl
  · exact Nat.le_trans (by decide) least
  · exact Nat.le_trans (by decide) least
  · exact Nat.le_trans (by decide) least
  all_goals decide

end Characters

section Hosts

variable {name : List Char}

theorem ipv4Part?_of_lower {first : Char} (lower : isLower first = true) (rest : List Char) :
    ipv4Part? (first :: rest) = none := by
  have other : first ≠ '0' := forall_lower (· ≠ '0') (by decide) lower
  have large : ∀ digit ∈ Hex.value? first, ¬ digit < 10 :=
    forall_lower (fun c => ∀ digit ∈ Hex.value? c, ¬ digit < 10) (by decide) lower
  have unread : Address.number? 10 (first :: rest) = none := by
    rw [Address.number?, List.foldlM_cons]
    cases value : Hex.value? first with
    | none => rfl
    | some digit =>
        simp only [if_neg (large digit value)]
        rfl
  unfold ipv4Part?
  split
  · next shape => cases shape
  · next shape => exact absurd (List.cons.inj shape).1 other
  · next shape => exact absurd (List.cons.inj shape).1 other
  · next shape => exact absurd (List.cons.inj shape).1 other
  · exact unread

theorem withoutLastEmpty_of_filled {parts : List (List Char)}
    (filled : ∀ part ∈ parts, part ≠ []) : withoutLastEmpty parts = parts := by
  unfold withoutLastEmpty
  split
  · next others shape =>
      have member : [] ∈ parts := by
        rw [← List.mem_reverse, shape]
        exact List.mem_cons_self
      exact absurd rfl (filled [] member)
  · rfl

theorem endsInNumber_host (location : Location) : endsInNumber location.host = false := by
  have clean : ∀ part ∈ location.label :: location.labels, '.' ∉ part := by
    intro part member dot
    exact absurd ((location.lettered part member).2 '.' dot) (by decide)
  obtain ⟨first, others⟩ := List.forall_mem_cons.mp clean
  rw [endsInNumber, Location.host, Text.Blank.splitOn_items first others,
    withoutLastEmpty_of_filled fun part member => (location.lettered part member).1,
    List.getLast?_eq_some_getLast (List.cons_ne_nil _ _)]
  obtain ⟨filled, lower⟩ := location.lettered _ (List.getLast_mem (List.cons_ne_nil _ _))
  obtain ⟨c, rest, shape⟩ := List.exists_cons_of_ne_nil filled
  rw [shape] at lower ⊢
  have letter := lower c List.mem_cons_self
  have nodigit := forall_lower (fun c => isDecimal c = false) (by decide) letter
  simp [nodigit, ipv4Part?_of_lower letter]

theorem lower_or_dot (location : Location) :
    ∀ c ∈ location.host, isLower c = true ∨ c = '.' := by
  obtain ⟨first, others⟩ := List.forall_mem_cons.mp location.lettered
  intro c member
  rcases List.mem_append.mp member with here | later
  · exact .inl (first.2 c here)
  · obtain ⟨part, among, here⟩ := List.mem_flatMap.mp later
    rcases List.mem_cons.mp here with dot | inside
    · exact .inr dot
    · exact .inl ((others part among).2 c inside)

theorem named_of_mem_host (location : Location) : ∀ c ∈ location.host, Named c := by
  intro c member
  rcases lower_or_dot location c member with lower | rfl
  · exact forall_lower Named (by decide) lower
  · decide

theorem exists_host_cons (location : Location) :
    ∃ c rest, location.host = c :: rest ∧ isLower c = true := by
  obtain ⟨filled, lower⟩ := location.lettered location.label List.mem_cons_self
  obtain ⟨c, rest, shape⟩ := List.exists_cons_of_ne_nil filled
  rw [shape] at lower
  exact ⟨c, _, by rw [Location.host, shape]; rfl, lower c List.mem_cons_self⟩

theorem isStandIn_of_clean {label : List Char} (clean : '-' ∉ label) : isStandIn label = false := by
  apply decide_eq_false
  intro shape
  have hyphen : '-' ∈ label.take 4 := by rw [shape]; decide
  exact clean ((List.take_sublist 4 label).mem hyphen)

/-- Without a hyphen in it no label stands for another. -/
theorem plainName?_of_named (named : ∀ c ∈ name, Named c) (clean : '-' ∉ name) :
    plainName? (Percent.decode (name.flatMap String.utf8EncodeChar)) = some name := by
  have ascii : ∀ c ∈ name, c.toNat < 0x80 := fun c member => (named c member).ascii
  have plain : '%' ∉ name := fun member => (named _ member).unescaped rfl
  have small : name.map Char.toLower = name :=
    List.map_congr_left (fun c member => (named c member).small) |>.trans (List.map_id name)
  have lower : lowerName? (Percent.decode (name.flatMap String.utf8EncodeChar)) = some name := by
    rw [lowerName?, Percent.decode_of_plain (percentSign_not_mem ascii plain),
      mapM_asciiChar? ascii, Option.map_some, small]
  have labels : ((splitOn '.' name).all fun label => !isStandIn label) = true := by
    rw [List.all_eq_true]
    intro label member
    have inside := (Text.Blank.mem_of_mem_splitOn member).2
    rw [isStandIn_of_clean fun hyphen => clean (inside _ hyphen), Bool.not_false]
  rw [plainName?, lower, Option.filter_some, if_pos labels]

/-- A name that is no number is the host it says, whatever the rules for other names are. -/
theorem readName_of_named [Names] (named : ∀ c ∈ name, Named c) (clean : '-' ∉ name)
    (filled : name ≠ []) (unnumbered : endsInNumber name = false) :
    readName name = .ok (.name name) := by
  have allowed : (name.any fun c => forbidden c || isControl c || c = '%') = false := by
    rw [List.any_eq_false]
    intro c member
    simp [(named c member).allowed, (named c member).visible, (named c member).unescaped]
  rw [readName, asciiName?, plainName?_of_named named clean, Option.some_or]
  dsimp only
  rw [allowed, if_neg Bool.false_ne_true, if_neg filled, unnumbered, if_neg Bool.false_ne_true]

theorem hyphen_not_mem_host (location : Location) : '-' ∉ location.host := by
  intro member
  rcases lower_or_dot location _ member with lower | dot
  · cases lower
  · cases dot

theorem read_host [Names] (location : Location) :
    Host.read location.host = .ok (.name location.host) := by
  obtain ⟨c, rest, shape, lower⟩ := exists_host_cons location
  have named := named_of_mem_host location
  have clean := hyphen_not_mem_host location
  have unnumbered := endsInNumber_host location
  have other := forall_lower (· ≠ '[') (by decide) lower
  rw [shape] at named clean unnumbered ⊢
  unfold Host.read
  split
  · next same => exact absurd (List.cons.inj same).1 other
  · exact readName_of_named named clean (List.cons_ne_nil _ _) unnumbered

end Hosts

section Ports

variable {digits chars : List Char}

theorem splitUser_of_clean (clean : '@' ∉ chars) : splitUser chars = none := by
  have passed : chars.reverse.dropWhile (· ≠ '@') = [] := by
    apply List.dropWhile_eq_nil_iff.mpr
    intro c member
    exact decide_eq_true fun mark => clean (mark ▸ List.mem_reverse.mp member)
  rw [splitUser, passed]

theorem splitPort_append {front : List Char}
    (clean : ∀ c ∈ front, c ≠ ':' ∧ c ≠ '[' ∧ c ≠ ']') (rest : List Char) :
    splitPort false (front ++ rest) =
      (front ++ (splitPort false rest).1, (splitPort false rest).2) := by
  induction front with
  | nil => rfl
  | cons c others ih =>
      obtain ⟨⟨colon, opens, closes⟩, later⟩ := List.forall_mem_cons.mp clean
      rw [List.cons_append, splitPort, if_neg fun ends => colon ends.1, if_neg opens,
        if_neg closes, ih later]
      rfl

theorem le_foldl_decimal (digits : List Char) (value : Nat) :
    value ≤ digits.foldl (fun value c => value * 10 + (c.toNat - 48)) value := by
  induction digits generalizing value with
  | nil => exact Nat.le_refl value
  | cons c rest ih =>
      have larger : value ≤ value * 10 + (c.toNat - 48) := by omega
      exact Nat.le_trans larger (ih _)

theorem portValue_of_decimal {value : Nat} (decimal : ∀ c ∈ digits, isDecimal c = true)
    (fits : digits.foldl (fun value c => value * 10 + (c.toNat - 48)) value ≤ 65535) :
    ∃ port, portValue value digits = .ok (port, []) := by
  induction digits generalizing value with
  | nil => exact ⟨value, rfl⟩
  | cons c rest ih =>
      obtain ⟨here, later⟩ := List.forall_mem_cons.mp decimal
      have small : ¬ 65535 < value * 10 + (c.toNat - 48) :=
        Nat.not_lt.mpr (Nat.le_trans (le_foldl_decimal rest _) fits)
      obtain ⟨port, read⟩ := ih later fits
      exact ⟨port, by rw [portValue, if_pos here, if_neg small, read]⟩

theorem exists_readPort (scheme : List Char) (decimal : ∀ c ∈ digits, isDecimal c = true)
    (fits : decimalValue digits ≤ 65535) :
    ∃ port, readPort scheme digits = .ok (port, []) := by
  obtain ⟨port, read⟩ := portValue_of_decimal decimal fits
  exact ⟨_, by rw [readPort, read]; rfl⟩

end Ports

section Whole

variable {scheme : List Char}

theorem Location.isWeb (location : Location) : IsWeb location.scheme := by
  unfold Location.scheme
  split
  · exact .inr rfl
  · exact .inl rfl

theorem inside_of_mem (location : Location) (special : isSpecial scheme = true) :
    ∀ c ∈ location.host ++ location.portText, inside scheme c = true ∧ c ≠ '@' := by
  intro c member
  rcases List.mem_append.mp member with named | port
  · have host := named_of_mem_host location c named
    have unended : endsAuthority true c = false := by
      simp only [endsAuthority, Bool.true_and, Bool.or_eq_false_iff, decide_eq_false_iff_not]
      exact ⟨⟨⟨host.ne (by decide), host.ne (by decide)⟩, host.ne (by decide)⟩,
        host.ne (by decide)⟩
    rw [inside, special, unended]
    exact ⟨rfl, host.ne (by decide)⟩
  · unfold Location.portText at port
    split at port
    · cases port
    · next digits given =>
        obtain ⟨-, decimal, -⟩ := location.numbered digits given
        rw [inside, special]
        rcases List.mem_cons.mp port with rfl | digit
        · decide
        · exact forall_decimal (fun c => (!endsAuthority true c) = true ∧ c ≠ '@') (by decide)
            (decimal c digit)

theorem splitUser_location (location : Location) (special : isSpecial scheme = true) :
    splitUser (location.host ++ location.portText) = none :=
  splitUser_of_clean fun mark => (inside_of_mem location special '@' mark).2 rfl

theorem splitPort_location (location : Location) :
    splitPort false (location.host ++ location.portText) = (location.host, location.port) := by
  have clean : ∀ c ∈ location.host, c ≠ ':' ∧ c ≠ '[' ∧ c ≠ ']' := by
    intro c member
    have named := named_of_mem_host location c member
    exact ⟨named.ne (by decide), named.ne (by decide), named.ne (by decide)⟩
  rw [splitPort_append clean]
  unfold Location.portText
  cases location.port <;> simp [splitPort]

theorem exists_readWhole [Names] (location : Location) (special : isSpecial scheme = true) :
    ∃ authority, readWhole scheme (location.host ++ location.portText) = .ok (authority, []) := by
  obtain ⟨c, rest, shape, -⟩ := exists_host_cons location
  have filled : location.host ≠ [] := shape ▸ List.cons_ne_nil c rest
  have hosted : readHost true location.host = .ok (.name location.host) := by
    rw [readHost, if_pos rfl, if_neg filled, read_host]
  unfold readWhole
  rw [splitUser_location location special]
  dsimp only [Option.getD_none, cut, List.dropWhile_nil]
  rw [splitPort_location, special, hosted]
  cases given : location.port with
  | none => simp [filled, bind, Except.bind, pure, Except.pure]
  | some digits =>
      obtain ⟨-, decimal, fits⟩ := location.numbered digits given
      obtain ⟨port, read⟩ := exists_readPort scheme decimal fits
      simp [filled, read, bind, Except.bind, pure, Except.pure]

theorem pathText_stopped (location : Location) (scheme : List Char) :
    location.pathText.takeWhile (inside scheme) = [] ∧
      location.pathText.dropWhile (inside scheme) = location.pathText := by
  have starts : location.pathText = [] ∨ ∃ rest, location.pathText = '/' :: rest := by
    unfold Location.pathText
    cases location.segments with
    | nil => cases location.closed <;> simp
    | cons segment others => exact .inr ⟨_, rfl⟩
  rcases starts with none | ⟨rest, shape⟩
  · rw [none]
    exact ⟨rfl, rfl⟩
  · rw [shape]
    exact ⟨List.takeWhile_cons_of_neg nofun, List.dropWhile_cons_of_neg nofun⟩

theorem exists_readAuthority [Names] (location : Location) (special : isSpecial scheme = true) :
    ∃ front, readAuthority scheme (location.host ++ location.portText ++ location.pathText) =
      .ok front := by
  have unended : ∀ c ∈ location.host ++ location.portText, inside scheme c = true :=
    fun c member => (inside_of_mem location special c member).1
  obtain ⟨authority, read⟩ := exists_readWhole location special
  obtain ⟨untaken, kept⟩ := pathText_stopped location scheme
  have whole : (location.host ++ location.portText ++ location.pathText).takeWhile
      (inside scheme) = location.host ++ location.portText := by
    rw [List.takeWhile_append_of_pos unended, untaken, List.append_nil]
  have after : (location.host ++ location.portText ++ location.pathText).dropWhile
      (inside scheme) = location.pathText := by
    rw [List.dropWhile_append_of_pos unended, kept]
  rw [readAuthority_eq, whole, after]
  dsimp only
  rw [splitUser_location location special, if_neg fun all => Bool.false_ne_true all.1, read]
  exact ⟨_, rfl⟩

theorem exists_withAuthority [Names] (location : Location) (special : isSpecial scheme = true) :
    ∃ url, withAuthority scheme (location.host ++ location.portText ++ location.pathText) =
      .ok url := by
  obtain ⟨front, read⟩ := exists_readAuthority location special
  rw [withAuthority, read]
  exact ⟨_, rfl⟩

theorem large_of_mem_write (location : Location) : ∀ c ∈ location.write, 45 ≤ c.toNat := by
  have scheme : ∀ c ∈ location.scheme, 45 ≤ c.toNat := by
    unfold Location.scheme
    split <;> exact Text.forall_of_all (by decide)
  have host : ∀ c ∈ location.host, 45 ≤ c.toNat := by
    intro c member
    rcases lower_or_dot location c member with lower | rfl
    · exact forall_lower (45 ≤ ·.toNat) (by decide) lower
    · decide
  have port : ∀ c ∈ location.portText, 45 ≤ c.toNat := by
    unfold Location.portText
    split
    · nofun
    · next digits given =>
        obtain ⟨-, decimal, -⟩ := location.numbered digits given
        intro c member
        rcases List.mem_cons.mp member with rfl | digit
        · decide
        · exact forall_decimal (45 ≤ ·.toNat) (by decide) (decimal c digit)
  have path : ∀ c ∈ location.pathText, 45 ≤ c.toNat := by
    intro c member
    rcases List.mem_append.mp member with segment | slash
    · obtain ⟨items, among, here⟩ := List.mem_flatMap.mp segment
      rcases List.mem_cons.mp here with rfl | plain
      · decide
      · exact large_of_unreserved (location.unreserved items among c plain)
    · split at slash
      · rw [List.mem_singleton.mp slash]
        decide
      · cases slash
  simp only [Location.write, List.mem_append, List.mem_cons, or_imp, forall_and, forall_eq]
  exact ⟨scheme, by decide, by decide, by decide, ⟨host, port⟩, path⟩

theorem isEdge_of_large {c : Char} (large : 45 ≤ c.toNat) : isEdge c = false := by
  rw [isEdge, decide_eq_false_iff_not]
  omega

theorem splitScheme_location (location : Location) (rest : List Char) :
    splitScheme (location.scheme ++ ':' :: rest) = some (location.scheme, rest) := by
  unfold Location.scheme
  split <;> rfl

/-- Every such address is read as one of a page. -/
theorem exists_parse_location [Names] (location : Location) :
    ∃ url, parse (String.ofList location.write) = .ok url ∧ IsWeb url.scheme := by
  have web := location.isWeb
  obtain ⟨url, read⟩ := exists_withAuthority location web.isSpecial
  obtain ⟨c, rest, shape, lower⟩ := exists_host_cons location
  have started : isSlash c = false := forall_lower (fun c => isSlash c = false) (by decide) lower
  have skipped : ('/' :: '/' :: (location.host ++ location.portText ++ location.pathText)).dropWhile
      isSlash = location.host ++ location.portText ++ location.pathText := by
    rw [shape, List.dropWhile_cons_of_pos rfl, List.dropWhile_cons_of_pos rfl]
    exact List.dropWhile_cons_of_neg (by rw [started]; decide)
  refine ⟨url, ?_, scheme_of_withAuthority read ▸ web⟩
  have shown : ∀ c ∈ location.write, isEdge c = false :=
    fun c member => isEdge_of_large (large_of_mem_write location c member)
  rw [parse, String.toList_ofList, parseChars, cleaned_of_shown shown, Location.write,
    splitScheme_location]
  dsimp only
  rw [if_neg (by rw [web.not_isFile]; decide), if_pos web.isSpecial, skipped, read]

end Whole

end DeadDrop.Url
