set_option autoImplicit false

namespace VersionAlignment.Sorted

variable {α β : Type}

theorem lookup_cons [DecidableEq α] (key other : α) (value : β) (entries : List (α × β)) :
    ((key, value) :: entries).lookup other =
      if other = key then some value else entries.lookup other := by
  rw [List.lookup_cons]
  by_cases same : other = key
  · simp [same]
  · simp [beq_false_of_ne same, same]

theorem lookup_eq_none [BEq α] [LawfulBEq α] {entries : List (α × β)} {key : α}
    (new : key ∉ entries.map Prod.fst) : entries.lookup key = none := by
  rw [List.lookup_eq_none_iff]
  intro entry member
  rw [bne_iff_ne]
  rintro rfl
  exact new (List.mem_map_of_mem member)

theorem lookup_of_mem [DecidableEq α] {entries : List (α × β)} {entry : α × β}
    (distinct : (entries.map Prod.fst).Nodup) (member : entry ∈ entries) :
    entries.lookup entry.1 = some entry.2 := by
  induction entries with
  | nil => simp at member
  | cons first entries ih =>
    obtain ⟨k, v⟩ := first
    rw [List.map_cons, List.nodup_cons] at distinct
    obtain ⟨new, rest⟩ := distinct
    rw [lookup_cons]
    rcases List.mem_cons.1 member with rfl | later
    · simp
    · have key : entry.1 ∈ entries.map Prod.fst := List.mem_map_of_mem later
      have other : entry.1 ≠ k := fun same => new (same ▸ key)
      rw [if_neg other]
      exact ih rest later

theorem lookup_of_perm [BEq α] [LawfulBEq α] {entries entries' : List (α × β)}
    (perm : entries.Perm entries') (distinct : (entries.map Prod.fst).Nodup) (key : α) :
    entries.lookup key = entries'.lookup key := by
  induction perm with
  | nil => rfl
  | cons entry _ ih =>
    rw [List.lookup_cons, List.lookup_cons, ih (List.nodup_cons.1 distinct).2]
  | swap a b rest =>
    have apart : b.1 ≠ a.1 := by
      simp only [List.map_cons, List.nodup_cons, List.mem_cons, not_or] at distinct
      exact distinct.1.1
    rw [List.lookup_cons]
    grind
  | trans first _ ih ih' =>
    exact (ih distinct).trans (ih' ((first.map Prod.fst).nodup distinct))

variable [Ord α]

def insert (a : α) : List α → List α
  | [] => [a]
  | b :: bs =>
    match compare a b with
    | .lt => a :: b :: bs
    | .eq => b :: bs
    | .gt => b :: insert a bs

def ofList (as : List α) : List α := as.foldl (fun set a => insert a set) []

def union (set added : List α) : List α := added.foldl (fun set a => insert a set) set

def alter (key : α) (value : Option β → β) : List (α × β) → List (α × β)
  | [] => [(key, value none)]
  | (k, v) :: entries =>
    match compare key k with
    | .lt => (key, value none) :: (k, v) :: entries
    | .eq => (k, value (some v)) :: entries
    | .gt => (k, v) :: alter key value entries

def put (key : α) (value : β) (entries : List (α × β)) : List (α × β) :=
  alter key (fun _ => value) entries

def mapOfList (entries : List (α × β)) : List (α × β) :=
  entries.foldl (fun map entry => put entry.1 entry.2 map) []

def Ascending (as : List α) : Prop := as.Pairwise fun a b => compare a b = .lt

section

variable [Std.LawfulEqOrd α]

theorem mem_insert {a b : α} {as : List α} : b ∈ insert a as ↔ b = a ∨ b ∈ as := by
  induction as with
  | nil => simp [insert]
  | cons c as ih =>
    simp only [insert]
    split
    · simp
    · next h =>
      have : a = c := Std.compare_eq_iff_eq.1 h
      simp [this]
    · simp only [List.mem_cons, ih]
      grind

theorem mem_union {a : α} {set added : List α} : a ∈ union set added ↔ a ∈ set ∨ a ∈ added := by
  unfold union
  induction added generalizing set with
  | nil => simp
  | cons b rest ih =>
    rw [List.foldl_cons, ih, mem_insert, List.mem_cons]
    grind

theorem ascending_insert [Std.TransOrd α] {a : α} {as : List α} (h : Ascending as) :
    Ascending (insert a as) := by
  induction as with
  | nil => simp [insert, Ascending]
  | cons b as ih =>
    obtain ⟨below, rest⟩ := List.pairwise_cons.1 h
    simp only [insert]
    split
    · next lt =>
      refine List.pairwise_cons.2 ⟨fun c hc => ?_, h⟩
      rcases List.mem_cons.1 hc with rfl | hc
      · exact lt
      · exact Std.TransCmp.lt_trans lt (below c hc)
    · exact h
    · next gt =>
      refine List.pairwise_cons.2 ⟨fun c hc => ?_, ih rest⟩
      rcases mem_insert.1 hc with rfl | hc
      · exact Std.OrientedCmp.lt_of_gt gt
      · exact below c hc

theorem ascending_union [Std.TransOrd α] {set added : List α} (ascending : Ascending set) :
    Ascending (union set added) :=
  List.foldlRecOn added _ ascending fun _ grown _ _ => ascending_insert grown

theorem Ascending.nodup {as : List α} (ascending : Ascending as) : as.Nodup := by
  refine List.Pairwise.imp ?_ ascending
  rintro a _ less rfl
  simp at less

theorem lookup_put [DecidableEq α] (key other : α) (value : β) (entries : List (α × β)) :
    (put key value entries).lookup other =
      if other = key then some value else entries.lookup other := by
  unfold put
  induction entries with
  | nil => rw [alter, lookup_cons]
  | cons entry entries ih =>
    obtain ⟨k, v⟩ := entry
    rw [alter]
    split
    · rw [lookup_cons]
    · next h =>
      have : key = k := Std.compare_eq_iff_eq.1 h
      rw [lookup_cons, lookup_cons, this]
      split <;> rfl
    · next gt =>
      have different : key ≠ k := fun same => by simp [same] at gt
      rw [lookup_cons, lookup_cons, ih]
      by_cases same : other = key
      · simp [same, different]
      · simp [same]

end

end VersionAlignment.Sorted
