import Mathlib.Data.List.Sort
import VersionAlignment.Proofs.Candidates

set_option autoImplicit false

namespace VersionAlignment

theorem Sorted.ascending_ext {α : Type} [Ord α] [Std.LawfulEqOrd α] [Std.TransOrd α]
    {as bs : List α} (left : Ascending as) (right : Ascending bs) (same : ∀ a, a ∈ as ↔ a ∈ bs) :
    as = bs := by
  have : Std.Irrefl fun a b : α => compare a b = .lt := ⟨fun a => by simp⟩
  have : Std.Antisymm fun a b : α => compare a b = .lt :=
    ⟨fun a b less greater => by simp [Std.OrientedCmp.gt_of_lt less] at greater⟩
  exact left.eq_of_mem_iff right same

inductive Forest.Holds : Forest → GraphNode → Prop
  | root {forest : Forest} {node : GraphNode} : node ∈ forest → Holds forest node
  | under {forest : Forest} {other node : GraphNode} :
    other ∈ forest → Holds other.children node → Holds forest node

namespace Forest

theorem holds_iff (forest : Forest) {node : GraphNode} :
    forest.Holds node ↔ ∃ other ∈ forest, node = other ∨ Holds other.children node := by
  constructor
  · intro holds
    cases holds with
    | root member => exact ⟨node, member, .inl rfl⟩
    | under member deeper => exact ⟨_, member, .inr deeper⟩
  · rintro ⟨other, member, rfl | deeper⟩
    · exact .root member
    · exact .under member deeper

theorem holds_append {front back : Forest} {node : GraphNode} :
    Holds (front ++ back) node ↔ Holds front node ∨ Holds back node := by
  rw [holds_iff, holds_iff front, holds_iff back]
  simp only [List.mem_append, or_and_right, exists_or]

theorem holds_cons {first node : GraphNode} {rest : Forest} :
    Holds (first :: rest) node ↔ node = first ∨ Holds first.children node ∨ Holds rest node := by
  rw [holds_iff, holds_iff rest, List.exists_mem_cons_iff, or_assoc]

theorem mem_nodes {forest : Forest} {node : GraphNode} :
    node ∈ forest.nodes ↔ forest.Holds node := by
  induction forest using nodes.induct with
  | case1 =>
    rw [nodes, holds_iff]
    simp
  -- What is below the first node waits in front of the pending ones.
  | case2 first pending ih => rw [nodes, List.mem_cons, ih, holds_append, holds_cons]

end Forest

/-- What is known of a coordinate sums up the nodes that count for it. -/
structure Occurrence.SumsUp (order : String → String → Ordering) (counts : GraphNode → Prop)
    (o : Occurrence) : Prop where
  version : ∃ node, counts node ∧ node.artifact.version = o.version
  greatest : ∀ node, counts node → order node.artifact.version o.version ≠ .gt
  exclusions : ∀ e, e ∈ o.exclusions ↔ ∃ node, counts node ∧ e ∈ node.exclusions
  ascending : (∀ node, counts node → Sorted.Ascending node.exclusions) →
    Sorted.Ascending o.exclusions

namespace Candidates

variable {s : Setting} {node : GraphNode}

theorem sumsUp_merge_none [Std.OrientedCmp s.given.order] :
    (merge s node none).SumsUp s.given.order (· = node) where
  version := ⟨node, rfl, rfl⟩
  greatest := by
    rintro _ rfl
    simp [merge, Std.ReflCmp.compare_self]
  exclusions := by simp [merge]
  ascending := fun ordered => ordered node rfl

theorem sumsUp_merge_some [Std.TransCmp s.given.order] {counts : GraphNode → Prop}
    {o : Occurrence} (sums : o.SumsUp s.given.order counts) :
    (merge s node (some o)).SumsUp s.given.order fun other => counts other ∨ other = node where
  version := by
    obtain ⟨other, counted, version⟩ := sums.version
    by_cases greater : s.given.order node.artifact.version o.version = .gt
    · exact ⟨node, .inr rfl, by simp [merge, greater]⟩
    · exact ⟨other, .inl counted, by simp [merge, greater, version]⟩
  greatest := by
    by_cases greater : s.given.order node.artifact.version o.version = .gt
    · simp only [merge, greater, if_true]
      rintro other (counted | rfl)
      · have below := Ordering.isLE_iff_ne_gt.2 (sums.greatest other counted)
        have less := Std.TransCmp.lt_of_isLE_of_lt below (Std.OrientedCmp.lt_of_gt greater)
        simp [less]
      · simp [Std.ReflCmp.compare_self]
    · simp only [merge, greater, if_false]
      rintro other (counted | rfl)
      · exact sums.greatest other counted
      · exact greater
  exclusions := by
    intro e
    simp only [merge, Sorted.mem_union, sums.exclusions, or_and_right, exists_or, exists_eq_left]
  ascending := fun ordered =>
    Sorted.ascending_union (sums.ascending fun other counted => ordered other (.inl counted))

def Counts (s : Setting) (c : Coordinate) (node : GraphNode) : Prop :=
  admits s node = true ∧ node.artifact.coordinate = c

structure Gathered (s : Setting) (seen : List GraphNode) (candidates : Candidates) : Prop where
  ascending : Sorted.Ascending (candidates.map Prod.fst)
  absent : ∀ c, candidates.lookup c = none → ∀ node ∈ seen, ¬ Counts s c node
  present : ∀ c o, candidates.lookup c = some o →
    o.SumsUp s.given.order fun node => node ∈ seen ∧ Counts s c node

theorem gathered_nil (s : Setting) : Gathered s [] [] :=
  ⟨List.Pairwise.nil, by simp, by simp⟩

variable [Std.TransCmp s.given.order] {seen : List GraphNode} {candidates : Candidates}

theorem Gathered.addNode (gathered : Gathered s seen candidates) (node : GraphNode) :
    Gathered s (seen ++ [node]) (addNode s candidates node) := by
  refine ⟨ascending_addNode node gathered.ascending, ?_, ?_⟩
  · intro c missing other member counts
    rw [lookup_addNode node gathered.ascending] at missing
    split at missing
    · cases missing
    · next skipped =>
      rcases List.mem_append.1 member with member | own
      · exact gathered.absent c missing other member counts
      · obtain rfl := List.mem_singleton.1 own
        exact skipped ⟨counts.1, counts.2.symm⟩
  · intro c o found
    rw [lookup_addNode node gathered.ascending] at found
    split at found
    · next counts =>
      obtain ⟨admitted, rfl⟩ := counts
      obtain rfl := Option.some.inj found
      have own : Counts s node.artifact.coordinate node := ⟨admitted, rfl⟩
      cases earlier : candidates.lookup node.artifact.coordinate with
      | none =>
        have none := gathered.absent _ earlier
        have alone : (fun other => other ∈ seen ++ [node] ∧
            Counts s node.artifact.coordinate other) = (· = node) := by
          funext other
          grind
        rw [alone]
        exact sumsUp_merge_none
      | some old =>
        have also : (fun other => other ∈ seen ++ [node] ∧
            Counts s node.artifact.coordinate other) = fun other =>
              (other ∈ seen ∧ Counts s node.artifact.coordinate other) ∨ other = node := by
          funext other
          grind
        rw [also]
        exact sumsUp_merge_some (gathered.present _ old earlier)
    · next skipped =>
      have same : (fun other => other ∈ seen ++ [node] ∧ Counts s c other) = fun other =>
          other ∈ seen ∧ Counts s c other := by
        funext other
        grind [Counts]
      rw [same]
      exact gathered.present c o found

theorem Gathered.foldl (gathered : Gathered s seen candidates) (nodes : List GraphNode) :
    Gathered s (seen ++ nodes) (nodes.foldl (Candidates.addNode s) candidates) := by
  induction nodes generalizing seen candidates with
  | nil => simpa using gathered
  | cons node rest ih => simpa using ih (gathered.addNode node)

/-- A node of the coordinate in one of the graphs, in a scope that is not ignored. -/
structure Occurs (s : Setting) (graphs : List Forest) (c : Coordinate) (node : GraphNode) :
    Prop where
  inside : ∃ graph ∈ graphs, graph.Holds node
  coordinate : node.artifact.coordinate = c
  heeded : s.policy.ignoresScope node.effectiveScope = false

structure Undeclared (s : Setting) (c : Coordinate) : Prop where
  foreign : s.project.owns c = false
  undeclared : c ∉ s.project.declaredCoordinates
  heeded : s.policy.ignoresStream c = false

omit [Std.TransCmp s.given.order] in
theorem admits_iff : admits s node = true ↔
    Undeclared s node.artifact.coordinate ∧ s.policy.ignoresScope node.effectiveScope = false := by
  simp only [admits, Bool.not_eq_true', Bool.or_eq_false_iff, List.contains_eq_mem,
    decide_eq_false_iff_not]
  constructor
  · rintro ⟨⟨⟨foreign, undeclared⟩, scope⟩, stream⟩
    exact ⟨⟨foreign, undeclared, stream⟩, scope⟩
  · rintro ⟨⟨foreign, undeclared, stream⟩, scope⟩
    exact ⟨⟨⟨foreign, undeclared⟩, scope⟩, stream⟩

omit [Std.TransCmp s.given.order] in
theorem counts_iff {c : Coordinate} {graphs : List Forest} :
    node ∈ graphs.flatMap Forest.nodes ∧ Counts s c node ↔
      Undeclared s c ∧ Occurs s graphs c node := by
  simp only [List.mem_flatMap, Forest.mem_nodes, Counts, admits_iff]
  constructor
  · rintro ⟨inside, ⟨undeclared, scope⟩, rfl⟩
    exact ⟨undeclared, inside, rfl, scope⟩
  · rintro ⟨undeclared, inside, rfl, scope⟩
    exact ⟨inside, ⟨undeclared, scope⟩, rfl⟩

theorem gathered_visits (s : Setting) [Std.TransCmp s.given.order] (graphs : List Forest) :
    Gathered s (graphs.flatMap Forest.nodes) (graphs.foldl (visit s) []) := by
  have gathered := (gathered_nil s).foldl (graphs.flatMap Forest.nodes)
  rwa [List.nil_append, List.foldl_flatMap] at gathered

omit [Std.TransCmp s.given.order] in
theorem mem_keys_visits {graphs : List Forest} {c : Coordinate} :
    c ∈ (graphs.foldl (visit s) []).map Prod.fst ↔
      Undeclared s c ∧ ∃ node, Occurs s graphs c node := by
  have visited : graphs.foldl (visit s) [] =
      (graphs.flatMap Forest.nodes).foldl (addNode s) [] := List.foldl_flatMap.symm
  rw [visited, mem_keys_foldl]
  simp only [← counts_iff, ← exists_and_left]
  simp [Counts]

theorem sumsUp_visits {graphs : List Forest} {c : Coordinate} {o : Occurrence}
    (member : (c, o) ∈ graphs.foldl (visit s) []) :
    o.SumsUp s.given.order (Occurs s graphs c) := by
  have gathered := gathered_visits s graphs
  have sums := gathered.present c o (Sorted.lookup_of_mem gathered.ascending.nodup member)
  have undeclared := (mem_keys_visits.1 (List.mem_map_of_mem member)).1
  have occurring : (fun node => node ∈ graphs.flatMap Forest.nodes ∧ Counts s c node) =
      Occurs s graphs c := by
    funext node
    rw [counts_iff, and_iff_right undeclared]
  rwa [occurring] at sums

end Candidates

def GraphNode.bare (node : GraphNode) : GraphNode := { node with children := [] }

namespace Occurrence.SumsUp

variable {order : String → String → Ordering} {counts counts' : GraphNode → Prop}
  {o o' : Occurrence}

theorem not_gt (sums : o.SumsUp order counts) (sums' : o'.SumsUp order counts')
    (carried : ∀ node, counts node → ∃ moved, counts' moved ∧ moved.bare = node.bare) :
    order o.version o'.version ≠ .gt := by
  obtain ⟨node, counted, version⟩ := sums.version
  obtain ⟨moved, counted', same⟩ := carried node counted
  have own : moved.artifact.version = o.version :=
    (congrArg (·.artifact.version) same).trans version
  rw [← own]
  exact sums'.greatest moved counted'

theorem subset (sums : o.SumsUp order counts) (sums' : o'.SumsUp order counts')
    (carried : ∀ node, counts node → ∃ moved, counts' moved ∧ moved.bare = node.bare)
    {e : Exclusion} (member : e ∈ o.exclusions) : e ∈ o'.exclusions := by
  obtain ⟨node, counted, own⟩ := (sums.exclusions e).1 member
  obtain ⟨moved, counted', same⟩ := carried node counted
  have kept : moved.exclusions = node.exclusions := congrArg (·.exclusions) same
  exact (sums'.exclusions e).2 ⟨moved, counted', kept ▸ own⟩

end Occurrence.SumsUp

def Forest.Show (graphs : List Forest) (node : GraphNode) : Prop :=
  ∃ graph ∈ graphs, ∃ inner, graph.Holds inner ∧ inner.bare = node

namespace Candidates

variable {s : Setting} {graphs others : List Forest} {c : Coordinate}

theorem Occurs.carried (shown : ∀ node, Forest.Show graphs node → Forest.Show others node)
    (node : GraphNode) (occurs : Occurs s graphs c node) :
    ∃ moved, Occurs s others c moved ∧ moved.bare = node.bare := by
  obtain ⟨⟨graph, member, holds⟩, coordinate, heeded⟩ := occurs
  obtain ⟨forest, present, moved, held, same⟩ := shown node.bare ⟨graph, member, node, holds, rfl⟩
  refine ⟨moved, ⟨⟨forest, present, held⟩, ?_, ?_⟩, same⟩
  · rw [← coordinate]
    exact congrArg (·.artifact.coordinate) same
  · rw [← heeded]
    exact congrArg (fun n => s.policy.ignoresScope n.effectiveScope) same

theorem Occurs.ordered
    (ordered : ∀ node, Forest.Show graphs node → Sorted.Ascending node.exclusions)
    (node : GraphNode) (occurs : Occurs s graphs c node) : Sorted.Ascending node.exclusions := by
  obtain ⟨graph, member, holds⟩ := occurs.inside
  exact ordered node.bare ⟨graph, member, node, holds, rfl⟩

variable [Std.TransCmp s.given.order]

theorem keys_visits_congr (same : ∀ node, Forest.Show others node ↔ Forest.Show graphs node) :
    (others.foldl (visit s) []).map Prod.fst = (graphs.foldl (visit s) []).map Prod.fst := by
  refine Sorted.ascending_ext (gathered_visits s others).ascending
    (gathered_visits s graphs).ascending fun c => ?_
  rw [mem_keys_visits, mem_keys_visits]
  refine and_congr_right fun _ => ⟨?_, ?_⟩
  · rintro ⟨node, occurs⟩
    obtain ⟨moved, occurs, -⟩ := Occurs.carried (fun node => (same node).1) node occurs
    exact ⟨moved, occurs⟩
  · rintro ⟨node, occurs⟩
    obtain ⟨moved, occurs, -⟩ := Occurs.carried (fun node => (same node).2) node occurs
    exact ⟨moved, occurs⟩

theorem visits_congr (same : ∀ node, Forest.Show others node ↔ Forest.Show graphs node)
    (ordered : ∀ node, Forest.Show graphs node → Sorted.Ascending node.exclusions)
    {o o' : Occurrence} (member : (c, o) ∈ graphs.foldl (visit s) [])
    (member' : (c, o') ∈ others.foldl (visit s) []) :
    s.given.order o.version o'.version = .eq ∧ o'.exclusions = o.exclusions := by
  have sums := sumsUp_visits member
  have sums' := sumsUp_visits member'
  have there := Occurs.carried (s := s) (c := c) fun node => (same node).2
  have back := Occurs.carried (s := s) (c := c) fun node => (same node).1
  constructor
  · have upper := sums.not_gt sums' there
    have lower := sums'.not_gt sums back
    have mirrored :
        s.given.order o'.version o.version = (s.given.order o.version o'.version).swap :=
      Std.OrientedCmp.eq_swap
    cases order : s.given.order o.version o'.version <;> simp_all
  · have ordered' : ∀ node, Forest.Show others node → Sorted.Ascending node.exclusions :=
      fun node shown => ordered node ((same node).1 shown)
    exact Sorted.ascending_ext (sums'.ascending (Occurs.ordered ordered'))
      (sums.ascending (Occurs.ordered ordered))
      fun e => ⟨sums'.subset sums back, sums.subset sums' there⟩

/-- What is found is what the graphs say. On their order, and on where in them a node stands,
depends only which of several equal versions is kept. -/
theorem visits_exact (s : Setting) [Std.TransCmp s.given.order] (graphs : List Forest) :
    let found := graphs.foldl (visit s) []
    Sorted.Ascending (found.map Prod.fst) ∧
    (∀ c, c ∈ found.map Prod.fst ↔ Undeclared s c ∧ ∃ node, Occurs s graphs c node) ∧
    (∀ c o, (c, o) ∈ found → o.SumsUp s.given.order (Occurs s graphs c)) ∧
    ∀ others, (∀ node, Forest.Show others node ↔ Forest.Show graphs node) →
      (∀ node, Forest.Show graphs node → Sorted.Ascending node.exclusions) →
      let found' := others.foldl (visit s) []
      found'.map Prod.fst = found.map Prod.fst ∧
      ∀ c o o', (c, o) ∈ found → (c, o') ∈ found' →
        s.given.order o.version o'.version = .eq ∧ o'.exclusions = o.exclusions := by
  refine ⟨(gathered_visits s graphs).ascending, fun c => mem_keys_visits,
    fun c o member => sumsUp_visits member, fun others same ordered => ⟨keys_visits_congr same, ?_⟩⟩
  intro c o o' member member'
  exact visits_congr same ordered member member'

def twoDepths : List Forest :=
  let logger (version : String) (exclusions : List Exclusion) : GraphNode :=
    { artifact := ⟨⟨"org.slf4j", "slf4j-api", "jar", none⟩, version⟩, exclusions }
  [[{ artifact := ⟨⟨"io.netty", "netty-codec", "jar", none⟩, "1.0"⟩
      children := [logger "1.7" [⟨"org.acme", "*"⟩]] }],
    [logger "2.0" [⟨"junit", "junit"⟩]]]

def byLength : Setting where
  project := ⟨[{ group := "org.acme", artifact := "core", version := "1", isRoot := true }], 0⟩
  policy := {}
  options := {}
  given := ⟨fun _ _ => none, fun _ _ => .ok none, fun _ => .ok [], compareOn String.length⟩

theorem visits_exact_twoDepths :
    let c : Coordinate := ⟨"org.slf4j", "slf4j-api", "jar", none⟩
    let o : Occurrence := ⟨"1.7", [⟨"junit", "junit"⟩, ⟨"org.acme", "*"⟩]⟩
    let o' : Occurrence := ⟨"2.0", [⟨"junit", "junit"⟩, ⟨"org.acme", "*"⟩]⟩
    (c, o) ∈ twoDepths.foldl (visit byLength) [] ∧
      (c, o') ∈ twoDepths.reverse.foldl (visit byLength) [] ∧
      byLength.given.order o.version o'.version = .eq ∧ o'.exclusions = o.exclusions ∧
      o.SumsUp byLength.given.order (Occurs byLength twoDepths c) := by
  intro c o o'
  have : Std.TransCmp byLength.given.order :=
    inferInstanceAs (Std.TransCmp (compareOn String.length))
  have member : (c, o) ∈ twoDepths.foldl (visit byLength) [] := by
    simp only [twoDepths, List.foldl_cons, List.foldl_nil, visit, Forest.nodes, List.append_nil]
    decide +kernel
  have member' : (c, o') ∈ twoDepths.reverse.foldl (visit byLength) [] := by
    simp only [twoDepths, List.reverse_cons, List.reverse_nil, List.nil_append, List.cons_append,
      List.foldl_cons, List.foldl_nil, visit, Forest.nodes, List.append_nil]
    decide +kernel
  obtain ⟨-, -, sums, congr⟩ := visits_exact byLength twoDepths
  have same : ∀ node, Forest.Show twoDepths.reverse node ↔ Forest.Show twoDepths node := by
    simp [Forest.Show]
  have ordered : ∀ node, Forest.Show twoDepths node → Sorted.Ascending node.exclusions := by
    rintro _ ⟨graph, inside, node, holds, rfl⟩
    rw [← Forest.mem_nodes] at holds
    obtain rfl | rfl : graph = _ ∨ graph = _ := by simpa [twoDepths] using inside
    · obtain rfl | rfl : node = _ ∨ node = _ := by simpa [Forest.nodes] using holds
      · exact List.Pairwise.nil
      · exact List.pairwise_singleton _ _
    · obtain rfl : node = _ := by simpa [Forest.nodes] using holds
      exact List.pairwise_singleton _ _
  obtain ⟨-, alike⟩ := congr twoDepths.reverse same ordered
  obtain ⟨equal, exclusions⟩ := alike c o o' member member'
  exact ⟨member, member', equal, exclusions, sums c o member⟩

end Candidates

end VersionAlignment
