import VersionAlignment.Project.Graph

set_option autoImplicit false

namespace VersionAlignment.Forest

theorem preorder_cons (node : GraphNode) (rest : Forest) :
    preorder (node :: rest) = node :: (preorder node.children ++ preorder rest) := by
  obtain ⟨artifact, scope, exclusions, children⟩ := node
  rw [preorder]

theorem preorder_induction {motive : Forest → Prop} (nil : motive [])
    (cons : ∀ node rest, motive node.children → motive rest → motive (node :: rest))
    (forest : Forest) : motive forest := by
  induction forest using preorder.induct with
  | case1 => exact nil
  | case2 artifact scope exclusions children rest below beside =>
    exact cons ⟨artifact, scope, exclusions, children⟩ rest below beside

theorem preorder_append (front back : Forest) :
    preorder (front ++ back) = preorder front ++ preorder back := by
  induction front with
  | nil => rw [List.nil_append, preorder, List.nil_append]
  | cons node front ih =>
    rw [List.cons_append, preorder_cons, ih, preorder_cons, List.cons_append, List.append_assoc]

theorem nodes_eq_preorder (forest : Forest) : forest.nodes = forest.preorder := by
  -- What is below the first node waits in front of the pending ones.
  induction forest using nodes.induct with
  | case1 => rw [nodes, preorder]
  | case2 node pending ih => rw [nodes, ih, preorder_append, preorder_cons]

def next? (stack : List GraphNode) : Option (GraphNode × List GraphNode) :=
  stack.getLast?.map fun node => (node, stack.dropLast ++ node.children.reverse)

/-- The calls on a stack visit these nodes one after another, and then there is none left. -/
inductive Walks : List GraphNode → List GraphNode → Prop
  | done {stack : List GraphNode} : next? stack = none → Walks stack []
  | visit {stack stack' visited : List GraphNode} {node : GraphNode} :
    next? stack = some (node, stack') → Walks stack' visited → Walks stack (node :: visited)

variable {stack visited visited' : List GraphNode}

theorem next?_reverse_cons (node : GraphNode) (pending : Forest) :
    next? (node :: pending).reverse = some (node, (node.children ++ pending).reverse) := by
  simp [next?]

theorem Walks.unique (walks : Walks stack visited) (walks' : Walks stack visited') :
    visited = visited' := by
  induction walks generalizing visited' with
  | done ended =>
    cases walks' with
    | done => rfl
    | visit called => simp [ended] at called
  | visit called _ ih =>
    cases walks' with
    | done ended => simp [called] at ended
    | visit called' rest' =>
      obtain ⟨rfl, rfl⟩ : _ ∧ _ := by simpa [called] using called'
      rw [ih rest']

theorem walks_nodes (forest : Forest) : Walks forest.reverse forest.nodes := by
  induction forest using nodes.induct with
  | case1 =>
    rw [nodes]
    exact .done rfl
  | case2 node pending ih =>
    rw [nodes]
    exact .visit (next?_reverse_cons node pending) ih

/-- The node at a path of positions: the first one is among the roots, each further one among the
nodes below. -/
def node? (forest : Forest) : List Nat → Option GraphNode
  | [] => none
  | [i] => forest[i]?
  | i :: j :: path => forest[i]?.bind fun node => node? node.children (j :: path)

def paths : Forest → List (List Nat)
  | [] => []
  | ⟨_, _, _, children⟩ :: rest =>
    [0] :: ((paths children).map (0 :: ·) ++ (paths rest).map (List.modifyHead (· + 1)))

variable {node : GraphNode} {rest forest : Forest} {path path' : List Nat}

theorem paths_cons (node : GraphNode) (rest : Forest) :
    paths (node :: rest) =
      [0] :: ((paths node.children).map (0 :: ·) ++
        (paths rest).map (List.modifyHead (· + 1))) := by
  obtain ⟨artifact, scope, exclusions, children⟩ := node
  rw [paths]

theorem node?_below (inner : path ≠ []) :
    node? (node :: rest) (0 :: path) = node? node.children path := by
  obtain ⟨j, path, rfl⟩ := List.exists_cons_of_ne_nil inner
  simp [node?]

theorem node?_beside (node : GraphNode) (rest : Forest) (path : List Nat) :
    node? (node :: rest) (path.modifyHead (· + 1)) = node? rest path := by
  rcases path with _ | ⟨i, _ | ⟨j, path⟩⟩ <;> simp [node?]

theorem below_mem_paths_cons :
    0 :: path ∈ paths (node :: rest) ↔ path = [] ∨ path ∈ paths node.children := by
  have apart : ∀ other : List Nat, other.modifyHead (· + 1) ≠ 0 :: path := by
    rintro (_ | ⟨i, other⟩) <;> simp
  simp [paths_cons, apart]

theorem beside_mem_paths_cons {i : Nat} :
    (i + 1) :: path ∈ paths (node :: rest) ↔ i :: path ∈ paths rest := by
  have moved : ∀ other : List Nat,
      other.modifyHead (· + 1) = (i + 1) :: path ↔ other = i :: path := by
    rintro (_ | ⟨j, other⟩) <;> simp
  simp [paths_cons, moved]

theorem mem_paths : path ∈ paths forest ↔ (node? forest path).isSome = true := by
  induction forest using preorder_induction generalizing path with
  | nil => rcases path with _ | ⟨i, _ | ⟨j, path⟩⟩ <;> simp [paths, node?]
  | cons node rest below beside =>
    rcases path with _ | ⟨_ | i, path⟩
    · simp [node?, paths_cons, beside]
    · rw [below_mem_paths_cons]
      by_cases root : path = []
      · simp [root, node?]
      · rw [node?_below root, or_iff_right root, below]
    · rw [beside_mem_paths_cons, beside, ← node?_beside node rest, List.modifyHead_cons]

theorem ne_nil_of_mem_paths (member : path ∈ paths forest) : path ≠ [] := by
  rintro rfl
  simp [mem_paths, node?] at member

theorem map_node?_paths (forest : Forest) :
    (paths forest).map (node? forest) = forest.preorder.map some := by
  induction forest using preorder_induction with
  | nil => rw [paths, preorder, List.map_nil, List.map_nil]
  | cons node rest below beside =>
    have inner : ((paths node.children).map (0 :: ·)).map (node? (node :: rest)) =
        (preorder node.children).map some := by
      rw [← below, List.map_map]
      exact List.map_congr_left fun path member => node?_below (ne_nil_of_mem_paths member)
    have outer : ((paths rest).map (List.modifyHead (· + 1))).map (node? (node :: rest)) =
        (preorder rest).map some := by
      rw [← beside, List.map_map]
      exact List.map_congr_left fun path _ => node?_beside node rest path
    rw [paths_cons, preorder_cons, List.map_cons, List.map_append, inner, outer, List.map_cons,
      List.map_append]
    rfl

/-- A path is before those that go on from it and those that turn off at a later position. -/
def Before : List Nat → List Nat → Prop := List.Lex (· < ·)

theorem Before.beside (before : Before path path') :
    Before (path.modifyHead (· + 1)) (path'.modifyHead (· + 1)) := by
  cases before with
  | nil => exact .nil
  | cons later => exact .cons later
  | rel less => exact .rel (Nat.succ_lt_succ less)

theorem before_moved (path : List Nat) (some : path' ≠ []) :
    Before (0 :: path) (path'.modifyHead (· + 1)) := by
  obtain ⟨i, path', rfl⟩ := List.exists_cons_of_ne_nil some
  exact .rel (Nat.succ_pos i)

theorem before_paths (forest : Forest) : (paths forest).Pairwise Before := by
  induction forest using preorder_induction with
  | nil =>
    rw [paths]
    exact .nil
  | cons node rest below beside =>
    rw [paths_cons, List.pairwise_cons, List.pairwise_append, List.pairwise_map, List.pairwise_map]
    refine ⟨?_, below.imp .cons, beside.imp .beside, ?_⟩
    -- The first node comes before all others, and what is below it before what is beside it.
    · intro path later
      rcases List.mem_append.1 later with inner | outer
      · obtain ⟨path, member, rfl⟩ := List.mem_map.1 inner
        obtain ⟨j, path, rfl⟩ := List.exists_cons_of_ne_nil (ne_nil_of_mem_paths member)
        exact .cons .nil
      · obtain ⟨path, member, rfl⟩ := List.mem_map.1 outer
        exact before_moved [] (ne_nil_of_mem_paths member)
    · intro _ inner _ outer
      obtain ⟨path, -, rfl⟩ := List.mem_map.1 inner
      obtain ⟨path', member, rfl⟩ := List.mem_map.1 outer
      exact before_moved path (ne_nil_of_mem_paths member)

/-- The walk ends. It goes through the nodes in preorder, each followed by all those below it, and
comes to each place of the graph once. -/
theorem nodes_exact (forest : Forest) :
    forest.nodes = forest.preorder ∧
    (∀ visited, Walks forest.reverse visited ↔ visited = forest.nodes) ∧
    ∃ places : List (List Nat), places.Pairwise Before ∧
      (∀ path, path ∈ places ↔ (node? forest path).isSome = true) ∧
      forest.nodes.map some = places.map (node? forest) := by
  refine ⟨nodes_eq_preorder forest, fun visited => ⟨?_, ?_⟩, paths forest, before_paths forest,
    fun path => mem_paths, ?_⟩
  · intro walks
    exact walks.unique (walks_nodes forest)
  · rintro rfl
    exact walks_nodes forest
  · rw [nodes_eq_preorder, map_node?_paths]

end VersionAlignment.Forest
