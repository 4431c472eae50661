import DeadDrop.Courier.Basic
import DeadDrop.Proofs.Secret.Id
import DeadDrop.Proofs.Url.Extend

/-!
What a courier puts behind its root. The names of families are plain, ids are made of digits and
dashes, so a root that ends in a slash, as that of every courier does, is kept in full in front of
them.
-/

namespace DeadDrop.Courier

open Text.Blank (splitOn)
open Url (IsPlain isDot isDoubleDot isDrive)

variable {courier : Courier} {family : Family} {id : SecretId} {suffix : List Char}

/-- The segments under which a secret is found. -/
def secretItems (family : Family) (id : SecretId) : List (List Char) := [family.segment, id.write]

section Segments

theorem isPlain_segment (family : Family) : IsPlain family.segment := by
  cases family with
  | message => exact ⟨Text.forall_of_all (by decide), by decide, by decide⟩
  | file => exact ⟨Text.forall_of_all (by decide), by decide, by decide⟩

theorem isPlain_config : IsPlain "config".toList :=
  ⟨Text.forall_of_all (by decide), by decide, by decide⟩

theorem slash_not_mem_segment (family : Family) : '/' ∉ family.segment :=
  fun member => ((isPlain_segment family).clean _ member).2.1 rfl

theorem splitOn_segment (family : Family) : splitOn '/' family.segment = [family.segment] :=
  Text.Blank.splitOn_of_clean (slash_not_mem_segment family)

/-- An id is too long to stand for dots, whatever is written behind it. -/
theorem isPlain_write_append (id : SecretId) {more : List Char} (plain : IsPlain more) :
    IsPlain (id.write ++ more) := by
  have undotted : ¬(isDot (id.write ++ more) = true ∨ isDoubleDot (id.write ++ more) = true) := by
    intro dots
    have short : ∀ word ∈ Url.dotted, word.length ≤ 6 := by decide
    have size := short _ (Url.mem_dotted dots)
    have long : id.write.length = 36 := id.length_write
    rw [List.length_map, List.length_append, long] at size
    omega
  rw [not_or, Bool.not_eq_true, Bool.not_eq_true] at undotted
  have digits : ∀ c ∈ id.write, Url.escapedInPath c = false ∧ c ≠ '/' ∧ c ≠ '\\' :=
    SecretId.forall_mem_write (by decide) (by decide) id
  refine ⟨?_, undotted.1, undotted.2⟩
  intro c member
  rcases List.mem_append.mp member with digit | behind
  · exact digits c digit
  · exact plain.clean c behind

theorem splitOn_secretReference (family : Family) (id : SecretId) (suffix : List Char) :
    ∃ first others, splitOn '/' suffix = first :: others ∧
      splitOn '/' (secretReference family id suffix) =
        family.segment :: (id.write ++ first) :: others := by
  obtain ⟨first, others, begun⟩ := Text.Blank.splitOn_begun '/' suffix
  refine ⟨first, others, begun [] List.not_mem_nil, ?_⟩
  rw [secretReference, Text.Blank.splitOn_append (slash_not_mem_segment family),
    begun _ id.slash_not_mem_write]

theorem splitOn_bareReference (family : Family) (id : SecretId) :
    splitOn '/' (secretReference family id []) = secretItems family id := by
  obtain ⟨first, others, split, whole⟩ := splitOn_secretReference family id []
  obtain ⟨rfl, rfl⟩ := List.cons.inj split
  rw [whole, secretItems]
  simp

theorem isPlain_of_mem_secretReference (plain : ∀ item ∈ splitOn '/' suffix, IsPlain item) :
    ∀ item ∈ splitOn '/' (secretReference family id suffix), IsPlain item := by
  obtain ⟨first, others, split, whole⟩ := splitOn_secretReference family id suffix
  rw [split] at plain
  obtain ⟨here, later⟩ := List.forall_mem_cons.mp plain
  rw [whole]
  refine List.forall_mem_cons.mpr ⟨isPlain_segment family, ?_⟩
  exact List.forall_mem_cons.mpr ⟨isPlain_write_append id here, later⟩

theorem isDrive_of_long {item : List Char} (long : 2 < item.length) : isDrive item = false := by
  unfold isDrive
  split
  · simp at long
  · rfl

theorem isDrive_segment (family : Family) : isDrive family.segment = false :=
  isDrive_of_long (by cases family <;> decide)

theorem isDrive_of_mem_secretItems : ∀ item ∈ secretItems family id, isDrive item = false := by
  have long : id.write.length = 36 := id.length_write
  have second : isDrive id.write = false := isDrive_of_long (by omega)
  simp [secretItems, isDrive_segment, second]

end Segments

section Roots

variable {front : List (List Char)} {reference : List Char} {text : String}

theorem address_eq (path : courier.root.path = .segments (front ++ [[]]))
    (plain : ∀ item ∈ splitOn '/' reference, IsPlain item)
    (undriven : Url.isFile courier.root.scheme = true →
      ∀ item ∈ splitOn '/' reference, isDrive item = false) :
    courier.address reference = .ok { courier.root with
      path := .segments (front ++ splitOn '/' reference), query := none, fragment := none } := by
  rw [address, Url.join_eq path plain undriven]
  rfl

theorem address_bareReference (path : courier.root.path = .segments (front ++ [[]]))
    (family : Family) (id : SecretId) :
    courier.address (secretReference family id []) = .ok { courier.root with
      path := .segments (front ++ secretItems family id), query := none, fragment := none } := by
  have nothing : ∀ item ∈ splitOn '/' [], IsPlain item :=
    List.forall_mem_singleton.mpr Url.isPlain_nil
  have items := splitOn_bareReference family id
  rw [← items]
  apply address_eq path (isPlain_of_mem_secretReference nothing)
  intro _
  rw [items]
  exact isDrive_of_mem_secretItems

theorem address_segment (path : courier.root.path = .segments (front ++ [[]])) (family : Family) :
    courier.address family.segment = .ok { courier.root with
      path := .segments (front ++ [family.segment]), query := none, fragment := none } := by
  have items := splitOn_segment family
  rw [← items]
  apply address_eq path
  · rw [items]
    exact List.forall_mem_singleton.mpr (isPlain_segment family)
  · intro _
    rw [items]
    exact List.forall_mem_singleton.mpr (isDrive_segment family)

theorem root_of_new [Url.Names] (made : new text = .ok courier)
    (web : Url.IsWeb courier.root.scheme) :
    ∃ api front, Url.parse text = .ok api ∧
      courier.root = { api with path := .segments (front ++ [[]]) } ∧
      (Url.Path.segments (front ++ [[]])).write = Url.slashEnded api.path.write := by
  rw [new] at made
  cases parsed : Url.parse text with
  | error fault => rw [parsed] at made; cases made
  | ok api =>
      rw [parsed] at made
      cases made
      have same : Url.IsWeb api.scheme := Url.closePath_scheme api ▸ web
      obtain ⟨read, path⟩ := same.path parsed
      obtain ⟨front, closed, written⟩ := Url.closePath_eq same path (Url.readItems_ne_nil read)
        (Url.isPlain_of_mem_readItems read)
      exact ⟨api, front, rfl, closed, written⟩

end Roots

end DeadDrop.Courier
