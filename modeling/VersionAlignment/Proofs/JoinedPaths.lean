import VersionAlignment.Path
import VersionAlignment.Proofs.SeparatedTexts

set_option autoImplicit false

namespace VersionAlignment

namespace Path

variable {base : Path} {text name : String}

theorem text_join (relative : startsAtRoot text = false) :
    (base.join text).text = base.text ++ base.separator ++ text := by
  simp [join, relative]

theorem text_join_ne_empty (relative : startsAtRoot text = false) (used : base.text ≠ "") :
    (base.join text).text ≠ "" := by
  rw [text_join relative]
  simp [used]

theorem separator_of_ends (ends : base.text.toList.getLast? = some '/') : base.separator = "" := by
  simp [separator, ends]

theorem separator_of_not_ends (ends : base.text.toList.getLast? ≠ some '/')
    (used : base.text ≠ "") : base.separator = "/" := by
  rw [separator]
  split
  · next none => simp [used] at none
  · next slash => exact absurd slash ends
  · rfl

theorem startsAtRoot_join (relative : startsAtRoot text = false) (used : base.text ≠ "") :
    startsAtRoot (base.join text).text = startsAtRoot base.text := by
  have nonempty : base.text.toList ≠ [] := by simpa using used
  obtain ⟨c, cs, chars⟩ := List.exists_cons_of_ne_nil nonempty
  simp [startsAtRoot, text_join relative, chars]

theorem startsAtRoot_of_not_mem (flat : '/' ∉ name.toList) : startsAtRoot name = false := by
  rw [startsAtRoot, beq_eq_false_iff_ne]
  exact fun first => flat (List.mem_of_mem_head? first)

theorem exists_split_join (relative : startsAtRoot text = false) (used : base.text ≠ "") :
    ∃ front idle, Text.split '/' base.text = front ++ idle ∧ front ≠ [] ∧
      (∀ piece ∈ idle, piece = "") ∧
      Text.split '/' (base.join text).text = front ++ Text.split '/' text := by
  by_cases ends : base.text.toList.getLast? = some '/'
  · obtain ⟨chars, split⟩ := List.getLast?_eq_some_iff.1 ends
    have whole : base.text = String.ofList chars ++ String.singleton '/' ++ "" := by
      apply String.toList_injective
      simp [split]
    refine ⟨Text.split '/' (String.ofList chars), [""], ?_, Text.split_ne_nil _ _, by simp, ?_⟩
    · rw [whole, Text.split_append]
      rfl
    · rw [text_join relative, separator_of_ends ends, whole, String.append_empty,
        String.append_empty, Text.split_append]
  · refine ⟨Text.split '/' base.text, [], by simp, Text.split_ne_nil _ _, by simp, ?_⟩
    rw [text_join relative, separator_of_not_ends ends used]
    exact Text.split_append '/'

def componentsOf (rooted : Bool) (pieces : List String) : List Component :=
  if rooted then .root :: pieces.filterMap component?
  else (pieces.head?.bind startComponent?).toList ++ pieces.tail.filterMap component?

theorem components_eq (p : Path) :
    p.components = componentsOf (startsAtRoot p.text) (Text.split '/' p.text) := by
  rw [components, componentsOf]
  split
  · rfl
  · cases Text.split '/' p.text <;> rfl

theorem componentsOf_append {rooted : Bool} {pieces : List String} (nonempty : pieces ≠ [])
    (more : List String) : componentsOf rooted (pieces ++ more) =
      componentsOf rooted pieces ++ more.filterMap component? := by
  obtain ⟨first, rest, rfl⟩ := List.exists_cons_of_ne_nil nonempty
  cases rooted <;> simp [componentsOf, ← List.filterMap_append]

theorem startComponent?_of_ne (other : name ≠ ".") : startComponent? name = component? name := by
  simp [startComponent?, other]

theorem components_join (flat : '/' ∉ name.toList) (other : name ≠ ".") :
    (base.join name).components = base.components ++ (component? name).toList := by
  have relative := startsAtRoot_of_not_mem flat
  by_cases used : base.text = ""
  · have alone : (base.join name).text = name := by simp [text_join relative, separator, used]
    have none : base.components = [] := by
      rw [components_eq, used]
      rfl
    rw [none, components_eq, alone, relative, Text.split_of_not_mem flat]
    simp [componentsOf, startComponent?_of_ne other]
  · obtain ⟨front, idle, split, nonempty, empty, joined⟩ := exists_split_join relative used
    have lost : idle.filterMap component? = [] := by
      refine List.filterMap_eq_nil_iff.2 fun piece member => ?_
      rw [empty piece member]
      rfl
    have piece : [name].filterMap component? = (component? name).toList := by
      cases h : component? name <;> simp [h]
    rw [components_eq, components_eq, startsAtRoot_join relative used, joined, split,
      Text.split_of_not_mem flat, componentsOf_append nonempty, componentsOf_append nonempty, lost,
      piece,
      List.append_nil]

def IsName (name : String) : Prop :=
  name ≠ "" ∧ name ≠ "." ∧ name ≠ ".." ∧ '/' ∉ name.toList

theorem IsName.component?_eq {name : String} (named : IsName name) :
    component? name = some (.name name) := by
  obtain ⟨nonempty, here, up, -⟩ := named
  simp [component?, isIdle, nonempty, here, up]

theorem exists_split_join_join (named : IsName name) (relative : startsAtRoot text = false)
    (used : base.text ≠ "") :
    ∃ front idle, Text.split '/' base.text = front ++ idle ∧ (∀ piece ∈ idle, piece = "") ∧
      Text.split '/' ((base.join name).join text).text = front ++ name :: Text.split '/' text := by
  have flat := named.2.2.2
  have relative' := startsAtRoot_of_not_mem flat
  have used' := text_join_ne_empty relative' used
  obtain ⟨front, idle, split, -, empty, joined⟩ := exists_split_join relative' used
  obtain ⟨front', idle', split', -, empty', joined'⟩ := exists_split_join relative used'
  rw [joined, Text.split_of_not_mem flat] at split'
  -- The name is not empty, so that it is not lost.
  have same : front' = front ++ [name] := by
    rcases List.eq_nil_or_concat idle' with none | ⟨more, last, rfl⟩
    · simpa [none] using split'.symm
    · rw [List.concat_eq_append, ← List.append_assoc] at split'
      have ends := List.singleton_inj.1 (List.append_inj' split' rfl).2
      exact absurd (ends.trans (empty' last (by simp))) named.1
  refine ⟨front, idle, split, empty, ?_⟩
  rw [joined', same, List.append_assoc, List.singleton_append]

theorem IsName.components_join {name : String} (named : IsName name) (base : Path) :
    (base.join name).components = base.components ++ [.name name] := by
  rw [Path.components_join named.2.2.2 named.2.1, named.component?_eq]
  rfl

theorem components_foldl_join (base : Path) {pieces : List String}
    (named : ∀ piece ∈ pieces, piece ≠ "" → IsName piece) :
    (pieces.foldl join base).components =
      base.components ++ (pieces.filter (· != "")).map .name := by
  induction pieces generalizing base with
  | nil => simp
  | cons piece pieces ih =>
    obtain ⟨first, named⟩ := List.forall_mem_cons.1 named
    rw [List.foldl_cons, ih (base.join piece) named]
    by_cases empty : piece = ""
    · rw [empty, components_join (by simp) (by simp)]
      simp [component?, isIdle]
    · rw [(first empty).components_join]
      simp [empty]

end Path

end VersionAlignment
