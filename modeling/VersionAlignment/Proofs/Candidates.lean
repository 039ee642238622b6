import VersionAlignment.Alignment.Report

set_option autoImplicit false

namespace VersionAlignment

namespace Sorted

variable {α β : Type} [Ord α] {key : α} {value : Option β → β} {entries : List (α × β)}

theorem keys_alter :
    (alter key value entries).map Prod.fst = insert key (entries.map Prod.fst) := by
  induction entries with
  | nil => rfl
  | cons entry entries ih =>
    obtain ⟨k, v⟩ := entry
    simp only [alter, List.map_cons, insert]
    split <;> simp [ih]

variable [Std.LawfulEqOrd α] [DecidableEq α]

theorem lookup_alter [Std.TransOrd α] (ascending : Ascending (entries.map Prod.fst)) (other : α) :
    (alter key value entries).lookup other =
      if other = key then some (value (entries.lookup key)) else entries.lookup other := by
  induction entries with
  | nil => exact lookup_cons key other (value none) []
  | cons entry entries ih =>
    obtain ⟨k, v⟩ := entry
    rw [List.map_cons, Ascending, List.pairwise_cons] at ascending
    obtain ⟨below, rest⟩ := ascending
    rw [alter]
    split
    · next lt =>
      -- A key below the first one is below all of them, so it has no value yet.
      have absent : ((k, v) :: entries).lookup key = none := by
        refine lookup_eq_none fun listed => ?_
        have after : compare key key = .lt := by
          rcases List.mem_cons.1 listed with rfl | later
          · exact lt
          · exact Std.TransCmp.lt_trans lt (below key later)
        simp at after
      rw [lookup_cons, absent]
    · next eq =>
      have same : key = k := Std.compare_eq_iff_eq.1 eq
      rw [lookup_cons, lookup_cons, lookup_cons, same, if_pos rfl]
      split <;> rfl
    · next gt =>
      have different : key ≠ k := by
        intro same
        simp [same] at gt
      rw [lookup_cons, ih rest, lookup_cons, lookup_cons, if_neg different]
      by_cases same : other = key
      · simp [same, different]
      · simp [same]

end Sorted

namespace Candidates

def visited (s : Setting) (graphs : Artifact → Forest) (modules : List Artifact) :
    List GraphNode :=
  modules.flatMap fun identity =>
    let c := identity.coordinate
    if s.policy.ignoredModules.any (·.covers c.group c.artifact) then []
    else (graphs identity).nodes

def recorded (s : Setting) (graphs : Artifact → Forest) : Candidates :=
  (visited s graphs (s.project.modules.map Module.identity)).foldl (addNode s) []

theorem gather_eq_foldl {s : Setting} {graphs : Artifact → Forest}
    (served : ∀ m, s.given.graph m = .ok (graphs m.identity)) (candidates : Candidates)
    (modules : List Module) :
    gather s candidates modules =
      .ok ((visited s graphs (modules.map Module.identity)).foldl (addNode s) candidates) := by
  induction modules generalizing candidates with
  | nil => rfl
  | cons m rest ih =>
    have ignoring : (s.policy.ignoredModules.any
        (·.covers m.identity.coordinate.group m.identity.coordinate.artifact)) =
          s.policy.ignoresModule m := rfl
    simp only [visited, List.map_cons, List.flatMap_cons, ignoring, gather]
    split
    · simpa [visited] using ih candidates
    · simpa [visited, served, visit, List.foldl_append] using
        ih (visit s candidates (graphs m.identity))

theorem gather_eq {s : Setting} {graphs : Artifact → Forest}
    (served : ∀ m, s.given.graph m = .ok (graphs m.identity)) :
    gather s [] s.project.modules = .ok (recorded s graphs) :=
  gather_eq_foldl served [] s.project.modules

variable {s : Setting}

theorem gather_of_served {graphs : Module → Forest} {modules : List Module}
    (served : ∀ m ∈ modules, s.policy.ignoresModule m = false → s.given.graph m = .ok (graphs m))
    (candidates : Candidates) : gather s candidates modules =
      .ok (((modules.filter fun m => !s.policy.ignoresModule m).map graphs).foldl (visit s)
        candidates) := by
  induction modules generalizing candidates with
  | nil => rfl
  | cons m rest ih =>
    obtain ⟨own, later⟩ := List.forall_mem_cons.1 served
    unfold gather
    cases heeded : s.policy.ignoresModule m with
    | true => simp [heeded, ih later]
    | false => simp [heeded, own heeded, ih later]

theorem ascending_addNode {candidates : Candidates} (node : GraphNode)
    (ascending : Sorted.Ascending (candidates.map Prod.fst)) :
    Sorted.Ascending ((addNode s candidates node).map Prod.fst) := by
  unfold addNode
  split
  · rw [Sorted.keys_alter]
    exact Sorted.ascending_insert ascending
  · exact ascending

theorem ascending_foldl {candidates : Candidates} (nodes : List GraphNode)
    (ascending : Sorted.Ascending (candidates.map Prod.fst)) :
    Sorted.Ascending ((nodes.foldl (addNode s) candidates).map Prod.fst) := by
  induction nodes generalizing candidates with
  | nil => exact ascending
  | cons node rest ih => exact ih (ascending_addNode node ascending)

theorem lookup_addNode {candidates : Candidates} (node : GraphNode)
    (ascending : Sorted.Ascending (candidates.map Prod.fst)) (c : Coordinate) :
    (addNode s candidates node).lookup c =
      if admits s node ∧ c = node.artifact.coordinate then
        some (merge s node (candidates.lookup c))
      else candidates.lookup c := by
  unfold addNode
  by_cases admitted : admits s node = true
  · rw [if_pos admitted, Sorted.lookup_alter ascending]
    by_cases here : c = node.artifact.coordinate
    · simp [admitted, here]
    · simp [here]
  · simp [admitted]

theorem mem_keys_addNode {candidates : Candidates} {node : GraphNode} {c : Coordinate} :
    c ∈ (addNode s candidates node).map Prod.fst ↔ c ∈ candidates.map Prod.fst ∨
      admits s node = true ∧ node.artifact.coordinate = c := by
  unfold addNode
  split
  · next admitted =>
    rw [Sorted.keys_alter, Sorted.mem_insert, or_comm]
    simp [admitted, eq_comm]
  · next refused => simp [refused]

theorem mem_keys_foldl {nodes : List GraphNode} {candidates : Candidates} {c : Coordinate} :
    c ∈ (nodes.foldl (addNode s) candidates).map Prod.fst ↔ c ∈ candidates.map Prod.fst ∨
      ∃ node ∈ nodes, admits s node = true ∧ node.artifact.coordinate = c := by
  induction nodes generalizing candidates with
  | nil => simp
  | cons node rest ih =>
    rw [List.foldl_cons, ih, mem_keys_addNode, or_assoc]
    simp

theorem admits_of_gather {modules : List Module} {candidates later : Candidates} {c : Coordinate}
    (gathered : gather s candidates modules = .ok later) (member : c ∈ later.map Prod.fst) :
    c ∈ candidates.map Prod.fst ∨
      ∃ node, admits s node = true ∧ node.artifact.coordinate = c := by
  induction modules generalizing candidates with
  | nil =>
    cases gathered
    exact .inl member
  | cons m rest ih =>
    unfold gather at gathered
    split at gathered
    · exact ih gathered
    · split at gathered
      · cases gathered
      · rcases ih gathered with old | admitted
        · rw [visit, mem_keys_foldl] at old
          exact old.imp_right fun ⟨node, _, admitted⟩ => ⟨node, admitted⟩
        · exact .inr admitted

theorem lookup_foldl_congr {s' : Setting} (order : s'.given.order = s.given.order)
    {nodes : List GraphNode} {c : Coordinate}
    (same : ∀ node ∈ nodes, node.artifact.coordinate = c → admits s' node = admits s node)
    {candidates candidates' : Candidates}
    (ascending : Sorted.Ascending (candidates.map Prod.fst))
    (ascending' : Sorted.Ascending (candidates'.map Prod.fst))
    (start : candidates'.lookup c = candidates.lookup c) :
    (nodes.foldl (addNode s') candidates').lookup c =
      (nodes.foldl (addNode s) candidates).lookup c := by
  induction nodes generalizing candidates candidates' with
  | nil => exact start
  | cons node rest ih =>
    refine ih (fun other member => same other (List.mem_cons_of_mem _ member))
      (ascending_addNode node ascending) (ascending_addNode node ascending') ?_
    rw [lookup_addNode node ascending, lookup_addNode node ascending', start]
    by_cases here : c = node.artifact.coordinate
    · have merged : merge s' node (candidates.lookup c) = merge s node (candidates.lookup c) := by
        unfold merge
        rw [order]
      rw [same node List.mem_cons_self here.symm, merged]
    · simp [here]

theorem mem_of_mem_foldl (s' : Setting) (order : s'.given.order = s.given.order)
    {nodes : List GraphNode} {c : Coordinate} {occurrence : Occurrence}
    (same : ∀ node ∈ nodes, node.artifact.coordinate = c → admits s' node = admits s node)
    (member : (c, occurrence) ∈ nodes.foldl (addNode s') []) :
    (c, occurrence) ∈ nodes.foldl (addNode s) [] := by
  have empty : Sorted.Ascending (([] : Candidates).map Prod.fst) := List.Pairwise.nil
  -- In ascending lists a member is what its key is looked up to, and lookups agree.
  have found := Sorted.lookup_of_mem (ascending_foldl nodes empty).nodup member
  rw [lookup_foldl_congr order same empty empty rfl] at found
  obtain ⟨before, after, split, -⟩ := List.lookup_eq_some_iff.1 found
  simp [split]

theorem admits_of_mem {nodes : List GraphNode} {c : Coordinate} {occurrence : Occurrence}
    (member : (c, occurrence) ∈ nodes.foldl (addNode s) []) :
    ∃ node ∈ nodes, admits s node = true ∧ node.artifact.coordinate = c := by
  have key := List.mem_map_of_mem (f := Prod.fst) member
  rw [mem_keys_foldl] at key
  exact key.resolve_left (by simp)

end Candidates

end VersionAlignment
