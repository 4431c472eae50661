import DeadDrop.Exchange.Link
import DeadDrop.Proofs.Url.Fragment
import DeadDrop.Proofs.Url.Percent

/-!
A link is read as it was written, on any page that can have one. Ids and keys are made of characters
that a fragment holds as they are.
-/

namespace DeadDrop

namespace Link

/-- The address of a page that links can stand on. -/
structure IsPage [Url.Names] (page : String) : Prop where
  web : ∃ url, Url.parse page = .ok url ∧ Url.IsWeb url.scheme
  clean : '#' ∉ page.toList
  solid : ∀ c ∈ page.toList.getLast?, Url.isEdge c = false

theorem exists_withoutLastSlash (base : List Char) :
    ∃ tail, base = withoutLastSlash base ++ tail ∧ (tail = [] ∨ tail = ['/']) := by
  rw [withoutLastSlash]
  split
  · rename_i last
    obtain ⟨init, rfl⟩ := List.getLast?_eq_some_iff.mp last
    exact ⟨['/'], by rw [List.dropLast_concat], .inr rfl⟩
  · exact ⟨[], (List.append_nil base).symm, .inl rfl⟩

section Fragments

/-- Stands for itself in a fragment. -/
structure Plain (c : Char) : Prop where
  solid : Url.isEdge c = false
  shown : Text.Blank.isBlank c = false
  literal : Url.escapedInFragment c = false

instance (c : Char) : Decidable (Plain c) :=
  decidable_of_iff (Url.isEdge c = false ∧ Text.Blank.isBlank c = false ∧
    Url.escapedInFragment c = false)
    ⟨fun both => ⟨both.1, both.2.1, both.2.2⟩, fun plain => ⟨plain.1, plain.2, plain.3⟩⟩

theorem encode_of_plain {chars : List Char} (plain : ∀ c ∈ chars, Plain c) :
    Url.Percent.encode Url.escapedInFragment chars = chars :=
  Url.Percent.encode_of_unescaped fun c member => (plain c member).literal

/-- The key that stands in a link. -/
def shownKey (link : Link) : List Char := if link.kind.manualKey then [] else link.key.toList

def items (link : Link) : List Char :=
  '/' :: link.kind.tag :: '/' ::
    (link.id.toList ++ if link.kind.manualKey then [] else '/' :: link.shownKey)

theorem writeChars_eq (base : List Char) (link : Link) :
    writeChars base link.id.toList link.key.toList link.kind =
      withoutLastSlash base ++ '/' :: '#' :: link.items := by
  cases manual : link.kind.manualKey <;> simp [writeChars, items, shownKey, manual]

variable {link : Link}

theorem plain_slash : Plain '/' := by decide

theorem plain_tag (kind : Kind) : Plain kind.tag := by
  rcases kind with ⟨_ | _, _ | _⟩ <;> decide

theorem plain_items (id : ∀ c ∈ link.id.toList, Plain c) (key : ∀ c ∈ link.shownKey, Plain c) :
    ∀ c ∈ link.items, Plain c := by
  have others : ∀ c ∈ if link.kind.manualKey then [] else '/' :: link.shownKey, Plain c := by
    split
    · exact fun c member => nomatch member
    · exact List.forall_mem_cons.mpr ⟨plain_slash, key⟩
  refine List.forall_mem_cons.mpr ⟨plain_slash, List.forall_mem_cons.mpr ⟨plain_tag _,
    List.forall_mem_cons.mpr ⟨plain_slash, fun c member => ?_⟩⟩⟩
  exact (List.mem_append.mp member).elim (id c) (others c)

theorem ofItems?_items (id : '/' ∉ link.id.toList) (key : '/' ∉ link.shownKey) :
    ofItems? (Text.Blank.splitOn '/' link.items) =
      some { link with key := String.ofList link.shownKey } := by
  have tag : '/' ∉ [link.kind.tag] := by
    rcases link.kind with ⟨_ | _, _ | _⟩ <;> decide
  have shape : link.items = [] ++ '/' :: ([link.kind.tag] ++ '/' ::
      (link.id.toList ++ if link.kind.manualKey then [] else '/' :: link.shownKey)) := rfl
  rw [shape, Text.Blank.splitOn_append (List.not_mem_nil), Text.Blank.splitOn_append tag]
  cases manual : link.kind.manualKey with
  | true =>
      rw [if_pos rfl, List.append_nil, Text.Blank.splitOn_of_clean id]
      simp [ofItems?, Kind.ofTag?_tag, shownKey, manual]
  | false =>
      rw [if_neg Bool.false_ne_true, Text.Blank.splitOn_append id, Text.Blank.splitOn_of_clean key]
      simp [ofItems?, Kind.ofTag?_tag]

end Fragments

theorem parse_write [Url.Names] {page : String} (whole : IsPage page) (link : Link)
    (idPlain : ∀ c ∈ link.id.toList, Plain c ∧ c ≠ '/')
    (keyPlain : ∀ c ∈ link.shownKey, Plain c ∧ c ≠ '/') :
    parse (write page link) = .ok { link with key := String.ofList link.shownKey } := by
  obtain ⟨url, parsed, web⟩ := whole.web
  obtain ⟨tail, split, closes⟩ := exists_withoutLastSlash page.toList
  have plain := plain_items (fun c member => (idPlain c member).1)
    fun c member => (keyPlain c member).1
  have found := ofItems?_items (fun mark => (idPlain _ mark).2 rfl)
    fun mark => (keyPlain _ mark).2 rfl
  rw [Url.parse] at parsed
  have filled : page.toList ≠ [] := by
    intro none
    rw [none] at parsed
    cases parsed
  have written : (link.items.dropLast) ++ [link.items.getLast (List.cons_ne_nil _ _)] =
      link.items := List.dropLast_concat_getLast _
  have last := plain _ (List.getLast_mem (List.cons_ne_nil _ _))
  have solid := whole.solid _ (List.getLast?_eq_some_getLast filled)
  rw [split] at parsed
  obtain ⟨read, again, fragment⟩ := Url.parseChars_trim_append parsed web closes
    (fun mark => whole.clean (split ▸ List.mem_append_left tail mark))
    (split.symm.trans (List.dropLast_concat_getLast filled).symm) solid
    (fun c member => Url.isBreak_of_shown (plain c (written ▸ member)).solid) last.solid last.shown
  rw [written] at again fragment
  rw [encode_of_plain plain] at fragment
  rw [parse, write, String.toList_ofList, writeChars_eq, again]
  simp only [fragment, Option.getD_some, found]

end Link

end DeadDrop
