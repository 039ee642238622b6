import VersionAlignment.Version.Item

set_option autoImplicit false

namespace VersionAlignment.Version

def Plain (items : List Item) : Prop :=
  (∀ item ∈ items, item.isList = false) ∧ ∀ item ∈ items.getLast?, item.isNull = false

/-- Plain items with at most one list after them, which is not empty and normal itself. -/
inductive Normal : List Item → Prop
  | plain {items : List Item} : Plain items → Normal items
  | nested {items inner : List Item} :
    Plain items → inner ≠ [] → Normal inner → Normal (items ++ [.list inner])

theorem dropNull_eq_dropWhile {items : List Item} (h : ∀ item ∈ items, item.isList = false) :
    dropNull items = items.dropWhile Item.isNull := by
  induction items with
  | nil => rfl
  | cons item items ih =>
    obtain ⟨single, rest⟩ := List.forall_mem_cons.1 h
    by_cases null : item.isNull = true
    · simp [dropNull, null, ih rest]
    · simp [dropNull, null, single]

theorem plain_normalize {items : List Item} (h : ∀ item ∈ items, item.isList = false) :
    Plain (normalize items) := by
  have reversed : ∀ item ∈ items.reverse, item.isList = false :=
    fun item hi => h item (List.mem_reverse.1 hi)
  rw [normalize, dropNull_eq_dropWhile reversed]
  constructor
  · intro item hi
    exact reversed item ((List.dropWhile_sublist _).mem (List.mem_reverse.1 hi))
  · intro item hi
    rw [List.getLast?_reverse] at hi
    have := List.head?_dropWhile_not Item.isNull items.reverse
    rw [hi] at this
    simpa using this

theorem normalize_append_list {inner : List Item} (items : List Item) (h : inner ≠ []) :
    normalize (items ++ [.list inner]) = normalize items ++ [.list inner] := by
  have : (Item.list inner).isNull = false := by simpa [Item.isNull] using h
  simp [normalize, dropNull, this, Item.isList]

theorem normalize_append_empty (items : List Item) :
    normalize (items ++ [.list []]) = normalize items := by
  simp [normalize, dropNull, Item.isNull]

end VersionAlignment.Version
