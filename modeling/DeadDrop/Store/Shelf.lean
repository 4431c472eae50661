import DeadDrop.Secret.Id

/-!
A shelf holds at most one thing under each id. Putting replaces.
-/

namespace DeadDrop.Store

abbrev Shelf (Item : Type) := List (SecretId × Item)

namespace Shelf

variable {Item : Type}

def find? (shelf : Shelf Item) (id : SecretId) : Option Item :=
  (List.find? (fun slot => slot.1 = id) shelf).map Prod.snd

def erase (shelf : Shelf Item) (id : SecretId) : Shelf Item :=
  shelf.filter fun slot => slot.1 ≠ id

def put (shelf : Shelf Item) (id : SecretId) (item : Item) : Shelf Item :=
  (id, item) :: erase shelf id

def keep (shelf : Shelf Item) (stays : Item → Bool) : Shelf Item :=
  shelf.filter fun slot => stays slot.2

@[simp] theorem find?_nil (id : SecretId) : find? ([] : Shelf Item) id = none := rfl

theorem find?_cons (slot : SecretId × Item) (shelf : Shelf Item) (id : SecretId) :
    find? (slot :: shelf) id = if slot.1 = id then some slot.2 else find? shelf id := by
  by_cases same : slot.1 = id <;> simp [find?, same]

theorem find?_erase (shelf : Shelf Item) (id other : SecretId) :
    find? (erase shelf id) other = if other = id then none else find? shelf other := by
  induction shelf with
  | nil => simp [erase]
  | cons slot rest ih =>
      by_cases gone : slot.1 = id
      · have : erase (slot :: rest) id = erase rest id := by simp [erase, gone]
        rw [this, ih, find?_cons]
        by_cases same : other = id
        · simp [same]
        · have apart : slot.1 ≠ other := fun h => same (h.symm.trans gone)
          simp [same, apart]
      · have : erase (slot :: rest) id = slot :: erase rest id := by simp [erase, gone]
        rw [this, find?_cons, find?_cons, ih]
        by_cases here : slot.1 = other
        · have apart : other ≠ id := fun h => gone (here.trans h)
          simp [here, apart]
        · simp [here]

theorem find?_put (shelf : Shelf Item) (id other : SecretId) (item : Item) :
    find? (put shelf id item) other = if other = id then some item else find? shelf other := by
  rw [put, find?_cons, find?_erase]
  by_cases same : other = id
  · simp [same]
  · have apart : id ≠ other := fun h => same h.symm
    simp [same, apart]

theorem erase_of_find?_eq_none {shelf : Shelf Item} {id : SecretId}
    (absent : find? shelf id = none) : erase shelf id = shelf := by
  apply List.filter_eq_self.mpr
  intro slot member
  simpa using List.find?_eq_none.mp (Option.map_eq_none_iff.mp absent) slot member

/-- No id stands twice. -/
def Distinct (shelf : Shelf Item) : Prop := (shelf.map Prod.fst).Nodup

theorem distinct_nil : Distinct ([] : Shelf Item) := List.nodup_nil

theorem Distinct.filter {shelf : Shelf Item} (distinct : Distinct shelf)
    (stays : SecretId × Item → Bool) : Distinct (shelf.filter stays) :=
  List.Sublist.nodup (List.filter_sublist.map Prod.fst) distinct

theorem Distinct.erase {shelf : Shelf Item} (distinct : Distinct shelf) (id : SecretId) :
    Distinct (erase shelf id) := distinct.filter _

theorem Distinct.keep {shelf : Shelf Item} (distinct : Distinct shelf) (stays : Item → Bool) :
    Distinct (keep shelf stays) := distinct.filter _

theorem Distinct.put {shelf : Shelf Item} (distinct : Distinct shelf) (id : SecretId)
    (item : Item) : Distinct (put shelf id item) := by
  apply List.nodup_cons.mpr
  constructor
  · intro member
    obtain ⟨slot, kept, same⟩ := List.mem_map.mp member
    have apart := (List.mem_filter.mp kept).2
    simp [same] at apart
  · exact distinct.erase id

theorem find?_eq_none_of_not_mem {shelf : Shelf Item} {id : SecretId}
    (absent : id ∉ shelf.map Prod.fst) : find? shelf id = none := by
  induction shelf with
  | nil => rfl
  | cons slot rest ih =>
      simp only [List.map_cons, List.mem_cons, not_or] at absent
      rw [find?_cons, if_neg (Ne.symm absent.1), ih absent.2]

-- With an id standing twice, filtering out the first slot would bring the second to light.
theorem find?_keep {shelf : Shelf Item} (distinct : Distinct shelf) (stays : Item → Bool)
    (id : SecretId) : find? (keep shelf stays) id = (find? shelf id).filter stays := by
  induction shelf with
  | nil => rfl
  | cons slot rest ih =>
      obtain ⟨absent, tail⟩ := List.nodup_cons.mp distinct
      have later := ih tail
      by_cases kept : stays slot.2 = true
      · have shape : keep (slot :: rest) stays = slot :: keep rest stays := by
          simp [keep, kept]
        rw [shape, find?_cons, find?_cons]
        by_cases here : slot.1 = id
        · simp [here, kept, Option.filter]
        · simp [here, later]
      · have shape : keep (slot :: rest) stays = keep rest stays := by
          simp [keep, kept]
        rw [shape, later, find?_cons]
        by_cases here : slot.1 = id
        · subst here
          simp [find?_eq_none_of_not_mem absent, kept, Option.filter]
        · simp [here]

end Shelf

end DeadDrop.Store
