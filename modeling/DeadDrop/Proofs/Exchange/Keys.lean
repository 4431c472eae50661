import DeadDrop.Armor.Base64
import DeadDrop.Proofs.Exchange.Link
import DeadDrop.Proofs.Secret.Id
import DeadDrop.Proofs.Url.Location

/-!
Which keys a link gives back. Whatever is read of a link, of any link, has been through a fragment
and between two slashes, so it holds none of the characters that a fragment escapes or drops and no
slash. A key that is made of the others comes back as it was; no other key does. The page and the id
may be any text at all: they may keep a link from being read, never change the key read from it.
-/

namespace DeadDrop

namespace Link

section Reading

variable {link : Link} {c : Char}

theorem escapedInFragment_eq_false_iff : Url.escapedInFragment c = false ↔
    0x21 ≤ c.toNat ∧ c.toNat ≤ 0x7E ∧ c ∉ ['"', '<', '>', '`'] := by
  have blank : c = ' ' ↔ c.toNat = 0x20 := Char.toNat_inj.symm
  simp only [Url.escapedInFragment, Url.isControl, Bool.or_eq_false_iff, decide_eq_false_iff_not,
    List.mem_cons, List.not_mem_nil, or_false, not_or, blank]
  constructor
  · rintro ⟨⟨⟨⟨⟨⟨least, most⟩, shown⟩, quote⟩, opens⟩, closes⟩, tick⟩
    exact ⟨by omega, by omega, quote, opens, closes, tick⟩
  · rintro ⟨least, most, quote, opens, closes, tick⟩
    exact ⟨⟨⟨⟨⟨⟨by omega, by omega⟩, by omega⟩, quote⟩, opens⟩, closes⟩, tick⟩

theorem plain_iff : Plain c ↔ Url.escapedInFragment c = false := by
  constructor
  · exact Plain.literal
  · intro literal
    obtain ⟨least, most, -⟩ := escapedInFragment_eq_false_iff.mp literal
    constructor
    · rw [Url.isEdge, decide_eq_false_iff_not]
      omega
    · simp only [Text.Blank.isBlank, Bool.or_eq_false_iff, Bool.and_eq_false_iff,
        decide_eq_false_iff_not]
      omega
    · exact literal

theorem plain_iff_printable : Plain c ∧ c ≠ '/' ↔
    0x21 ≤ c.toNat ∧ c.toNat ≤ 0x7E ∧ c ∉ ['/', '"', '<', '>', '`'] := by
  have parted : c ∉ ['/', '"', '<', '>', '`'] ↔ c ≠ '/' ∧ c ∉ ['"', '<', '>', '`'] := by
    rw [List.mem_cons, not_or]
  rw [plain_iff, escapedInFragment_eq_false_iff, parted]
  constructor
  · rintro ⟨⟨least, most, others⟩, slash⟩
    exact ⟨least, most, slash, others⟩
  · rintro ⟨least, most, slash, others⟩
    exact ⟨⟨least, most, others⟩, slash⟩

theorem key_of_ofItems? {items : List (List Char)} (found : ofItems? items = some link) :
    link.key = "" ∨ link.key.toList ∈ items := by
  unfold ofItems? at found
  dsimp only at found
  split at found
  · next tag id =>
      obtain ⟨kind, -, rfl⟩ := Option.map_eq_some_iff.mp found
      exact .inl rfl
  · next tag id key =>
      obtain ⟨kind, -, rfl⟩ := Option.map_eq_some_iff.mp found
      right
      simp
  · cases found

theorem plain_of_parse [Url.Names] {text : String} (parsed : parse text = .ok link) :
    ∀ c ∈ link.key.toList, Plain c ∧ c ≠ '/' := by
  unfold parse at parsed
  dsimp only at parsed
  split at parsed
  · cases parsed
  · next url read =>
      split at parsed
      · next found items =>
          cases parsed
          rcases key_of_ofItems? items with none | among
          · rw [none]
            nofun
          · obtain ⟨free, inside⟩ := Text.Blank.mem_of_mem_splitOn among
            intro c member
            constructor
            · exact plain_iff.mpr (Url.unescaped_of_mem_fragment read c (inside c member))
            · rintro rfl
              exact free member
      · cases parsed

end Reading

section Writing

variable {page id : String}

theorem parse_write_eq_iff [Url.Names] (whole : IsPage page)
    (idPlain : ∀ c ∈ id.toList, Plain c ∧ c ≠ '/')
    (key : String) (file : Bool) :
    parse (write page ⟨id, key, ⟨file, false⟩⟩) = .ok ⟨id, key, ⟨file, false⟩⟩ ↔
      ∀ c ∈ key.toList, Plain c ∧ c ≠ '/' := by
  constructor
  · exact plain_of_parse
  · intro keyPlain
    have read := parse_write whole ⟨id, key, ⟨file, false⟩⟩ idPlain keyPlain
    simpa [shownKey] using read

theorem isPage_location [Url.Names] (location : Url.Location) :
    IsPage (String.ofList location.write) := by
  have large : ∀ c ∈ (String.ofList location.write).toList, 45 ≤ c.toNat := by
    rw [String.toList_ofList]
    exact Url.large_of_mem_write location
  constructor
  · exact Url.exists_parse_location location
  · intro mark
    exact absurd (large '#' mark) (by decide)
  · intro c last
    exact Url.isEdge_of_large (large c (List.mem_of_getLast? last))

theorem plain_write (id : SecretId) : ∀ c ∈ id.write, Plain c ∧ c ≠ '/' :=
  SecretId.forall_mem_write (by decide) (by decide +kernel) id

theorem plain_of_canonical (canonical : SecretId.isCanonical id = true) :
    ∀ c ∈ id.toList, Plain c ∧ c ≠ '/' := by
  obtain ⟨read, written⟩ := SecretId.exists_write canonical
  rw [← written]
  exact plain_write read

theorem plain_urlSafe : ∀ value < 64, Plain (Armor.Base64.Alphabet.urlSafe.digit value) ∧
    Armor.Base64.Alphabet.urlSafe.digit value ≠ '/' := by
  decide +kernel

end Writing

section Pages

theorem key_of_ofItems?_concat {link : Link} {items : List (List Char)} {key : List Char}
    (several : 3 ≤ items.length) (found : ofItems? (items ++ [key]) = some link) :
    link.key = String.ofList key := by
  unfold ofItems? at found
  dsimp only at found
  split at found
  · next shape =>
      have size := congrArg List.length shape
      simp only [List.length_append, List.length_cons, List.length_nil] at size
      omega
  · next tag id last shape =>
      have parts : items ++ [key] = [[], tag, id] ++ [last] := shape
      obtain ⟨-, same⟩ := List.append_inj' parts rfl
      obtain ⟨kind, -, rfl⟩ := Option.map_eq_some_iff.mp found
      rw [(List.cons.inj same).1]
  · cases found

theorem exists_cleaned (front begun : List Char) {c : Char} (plain : Plain c) :
    ∃ before, Url.cleaned (Text.Blank.trim (front ++ '/' :: '#' :: (begun ++ [c]))) =
      before ++ '#' :: (begun ++ [c]).filter fun d => !Url.isBreak d := by
  have slash : Text.Blank.isBlank '/' = false := by decide
  have edge : Url.isEdge '/' = false := by decide
  have signs : Url.isBreak '/' = false ∧ Url.isBreak '#' = false := by decide
  have shape (front : List Char) : front ++ '/' :: '#' :: (begun ++ [c]) =
      (front ++ '/' :: '#' :: begun) ++ [c] := by simp
  -- Neither reader drops the slash in front of the mark or the last character of the fragment.
  have started : Text.Blank.trimStart (front ++ '/' :: '#' :: (begun ++ [c])) =
      Text.Blank.trimStart front ++ '/' :: '#' :: (begun ++ [c]) :=
    Url.dropWhile_append_of_stopped front (List.dropWhile_cons_of_neg (by rw [slash]; decide))
  refine ⟨((Text.Blank.trimStart front).dropWhile Url.isEdge).filter (fun d => !Url.isBreak d) ++
    ['/'], ?_⟩
  rw [Text.Blank.trim, started, shape, Text.Blank.trimEnd_concat _ plain.shown,
    Url.cleaned_concat _ plain.solid, ← shape, Url.lead,
    Url.dropWhile_append_of_stopped _ (List.dropWhile_cons_of_neg (by rw [edge]; decide))]
  simp [signs]

theorem exists_fragment [Url.Names] {front fragment : List Char} {url : Url}
    (filled : fragment ≠ []) (plain : Plain (fragment.getLast filled))
    (read : Url.parseChars (Text.Blank.trim (front ++ '/' :: '#' :: fragment)) = .ok url) :
    ∃ before, url.fragment = some (Url.Percent.encode Url.escapedInFragment
      (before ++ fragment.filter fun d => !Url.isBreak d)) := by
  obtain ⟨outer, cleaned⟩ := exists_cleaned front fragment.dropLast plain
  rw [List.dropLast_concat_getLast filled] at cleaned
  obtain ⟨before, cut⟩ := Url.cut_append_marked '#' outer
    (fragment.filter fun d => !Url.isBreak d)
  refine ⟨before, ?_⟩
  rw [Url.fragment_of_parseChars read, cleaned, cut]
  rfl

theorem encode_slashed (front back : List Char) :
    Url.Percent.encode Url.escapedInFragment (front ++ '/' :: back) =
      Url.Percent.encode Url.escapedInFragment front ++
        '/' :: Url.Percent.encode Url.escapedInFragment back := by
  rw [Url.Percent.encode_append, Url.Percent.encode_cons, if_neg (by decide), List.singleton_append]

theorem exists_splitOn {key : List Char} (plain : ∀ c ∈ key, Plain c) (whole : '/' ∉ key)
    (before tag id : List Char) :
    ∃ items, 3 ≤ items.length ∧ Text.Blank.splitOn '/' (Url.Percent.encode Url.escapedInFragment
      (before ++ ('/' :: (tag ++ '/' :: (id ++ '/' :: key))).filter fun d => !Url.isBreak d)) =
        items ++ [key] := by
  have slash : Url.isBreak '/' = false := by decide
  have kept : (key.filter fun d => !Url.isBreak d) = key := by
    apply List.filter_eq_self.mpr
    intro c member
    rw [Url.isBreak_of_shown (plain c member).solid]
    rfl
  simp only [List.filter_cons, List.filter_append, slash, Bool.not_false, if_true, kept,
    encode_slashed, encode_of_plain plain, Text.Blank.splitOn_separated,
    Text.Blank.splitOn_of_clean whole]
  simp only [← List.append_assoc]
  refine ⟨_, ?_, rfl⟩
  have some (chars : List Char) :=
    List.length_pos_iff.mpr (Text.Blank.splitOn_ne_nil '/' chars)
  simp only [List.length_append]
  grind

/-- Whatever the page and the id are, a link that is read at all gives back its key. -/
theorem key_of_parse_write [Url.Names] {page id key : String} {file : Bool} {link : Link}
    (given : key ≠ "") (keyPlain : ∀ c ∈ key.toList, Plain c ∧ c ≠ '/')
    (parsed : parse (write page ⟨id, key, ⟨file, false⟩⟩) = .ok link) : link.key = key := by
  let tag := (⟨file, false⟩ : Kind).tag
  have plain : ∀ c ∈ key.toList, Plain c := fun c member => (keyPlain c member).1
  have filled : key.toList ≠ [] := fun none => given (String.toList_eq_nil_iff.mp none)
  have written : items ⟨id, key, ⟨file, false⟩⟩ =
      '/' :: ([tag] ++ '/' :: (id.toList ++ '/' :: key.toList)) := rfl
  have begun : items ⟨id, key, ⟨file, false⟩⟩ ≠ [] := List.cons_ne_nil _ _
  have last : (items ⟨id, key, ⟨file, false⟩⟩).getLast begun = key.toList.getLast filled := by
    simp [written, List.getLast_cons, filled]
  rw [parse, write, String.toList_ofList, writeChars_eq] at parsed
  split at parsed
  · cases parsed
  · next url read =>
      obtain ⟨before, fragment⟩ := exists_fragment begun
        (last ▸ plain _ (List.getLast_mem filled)) read
      obtain ⟨others, several, split⟩ := exists_splitOn plain
        (fun mark => (keyPlain _ mark).2 rfl) before [tag] id.toList
      rw [fragment, written, Option.getD_some, split] at parsed
      split at parsed
      · next found =>
          cases parsed
          rw [key_of_ofItems?_concat several found, String.ofList_toList]
      · cases parsed

end Pages

/-- On any page a link gives back the id and the flags. It gives back the key, too, if the key
stands in it, exactly if the characters of the key are printable ASCII other than the slash and the
four that a fragment escapes; those of keys that are made by chance all are. -/
theorem survives_iff_printable [Url.Names] (location : Url.Location) {id : String}
    (canonical : SecretId.isCanonical id = true) (key : String) (file : Bool) :
    let page := String.ofList location.write
    parse (write page ⟨id, key, ⟨file, true⟩⟩) = .ok ⟨id, "", ⟨file, true⟩⟩ ∧
      (parse (write page ⟨id, key, ⟨file, false⟩⟩) = .ok ⟨id, key, ⟨file, false⟩⟩ ↔
        ∀ c ∈ key.toList, 0x21 ≤ c.toNat ∧ c.toNat ≤ 0x7E ∧ c ∉ ['/', '"', '<', '>', '`']) ∧
      ((∀ c ∈ key.toList, ∃ value < 64, c = Armor.Base64.Alphabet.urlSafe.digit value) →
        parse (write page ⟨id, key, ⟨file, false⟩⟩) = .ok ⟨id, key, ⟨file, false⟩⟩) := by
  intro page
  have whole := isPage_location location
  have idPlain := plain_of_canonical canonical
  have exact_iff := parse_write_eq_iff whole idPlain key file
  refine ⟨?_, ?_, ?_⟩
  · exact parse_write whole ⟨id, key, ⟨file, true⟩⟩ idPlain nofun
  · rw [exact_iff]
    exact forall₂_congr fun c member => plain_iff_printable
  · intro safe
    apply exact_iff.mpr
    intro c member
    obtain ⟨value, small, rfl⟩ := safe c member
    exact plain_urlSafe value small

section Pages

def notesPage : Url.Location where
  secure := true
  label := "drop".toList
  labels := ["example".toList]
  port := some "8443".toList
  segments := ["notes".toList]
  closed := true
  lettered := by simp [Url.isLower]
  numbered := by
    rintro digits ⟨⟩
    exact ⟨by decide, Text.forall_of_all (by decide), by decide⟩
  unreserved := by simp [Url.isUnreserved, Url.isAsciiLetter]

def noteId : String := "00010203-0405-4607-8809-0a0b0c0d0e0f"

theorem notesPage_loses_slashed_key :
    SecretId.isCanonical noteId = true ∧
      parse (write "https://drop.example:8443/notes/" ⟨noteId, "a~b", ⟨true, false⟩⟩) =
        .ok ⟨noteId, "a~b", ⟨true, false⟩⟩ ∧
      parse (write "https://drop.example:8443/notes/" ⟨noteId, "a/b", ⟨true, false⟩⟩) ≠
        .ok ⟨noteId, "a/b", ⟨true, false⟩⟩ := by
  have canonical : SecretId.isCanonical noteId = true := by decide +kernel
  have page : String.ofList notesPage.write = "https://drop.example:8443/notes/" := by
    decide +kernel
  obtain ⟨-, plain, -⟩ := survives_iff_printable notesPage canonical "a~b" true
  obtain ⟨-, slashed, -⟩ := survives_iff_printable notesPage canonical "a/b" true
  rw [page] at plain slashed
  refine ⟨canonical, plain.mpr (Text.forall_of_all (by decide)), ?_⟩
  intro read
  exact (slashed.mp read '/' (by decide)).2.2 (by decide)

end Pages

end Link

end DeadDrop
