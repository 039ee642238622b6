import VersionAlignment.Sorted
import VersionAlignment.Toml.Document

set_option autoImplicit false

namespace VersionAlignment.Toml

def pairsOf (table : Table) : List (List String × Value) :=
  table.map fun (key, value) => ([key], value)

def assignments (table : Table) : List Statement :=
  table.map fun (key, value) => .assign [key] value

theorem assignments_append (a b : Table) : assignments (a ++ b) = assignments a ++ assignments b :=
  List.map_append

def elementsOf (array : String × List Table) : List Statement :=
  array.2.flatMap fun table => .header (.element [array.1]) :: assignments table

def arrayOf (key : String) (tables : List Table) : List (String × List Table) :=
  if tables.isEmpty then [] else [(key, tables)]

theorem mem_arrayOf {key : String} {tables : List Table} {array : String × List Table} :
    array ∈ arrayOf key tables ↔ tables ≠ [] ∧ array = (key, tables) := by
  cases tables <;> simp [arrayOf]

theorem elementsOf_arrayOf (key : String) (tables : List Table) :
    (arrayOf key tables).flatMap elementsOf = elementsOf (key, tables) := by
  cases tables <;> simp [arrayOf, elementsOf]

def sectionsOf (array : String × List Table) : List Section :=
  array.2.map fun table => ⟨.element [array.1], pairsOf table⟩

theorem sections_assignments (table : Table) (rest : List Statement) :
    sections (assignments table ++ rest) =
      (pairsOf table ++ (sections rest).1, (sections rest).2) := by
  induction table with
  | nil => rfl
  | cons entry table ih =>
    have step : sections (assignments (entry :: table) ++ rest) =
        (([entry.1], entry.2) :: (sections (assignments table ++ rest)).1,
          (sections (assignments table ++ rest)).2) := rfl
    rw [step, ih]
    rfl

theorem sections_elementsOf (array : String × List Table) {rest : List Statement}
    {later : List Section} (none : sections rest = ([], later)) :
    sections (elementsOf array ++ rest) = ([], sectionsOf array ++ later) := by
  obtain ⟨key, tables⟩ := array
  induction tables with
  | nil => exact none
  | cons table tables ih =>
    have shape : elementsOf (key, table :: tables) ++ rest =
        .header (.element [key]) :: (assignments table ++ (elementsOf (key, tables) ++ rest)) := by
      simp [elementsOf]
    rw [shape, sections, sections_assignments, ih]
    simp [sectionsOf]

theorem sections_arrays (arrays : List (String × List Table)) :
    sections (arrays.flatMap elementsOf) = ([], arrays.flatMap sectionsOf) := by
  induction arrays with
  | nil => rfl
  | cons array arrays ih => exact sections_elementsOf array ih

namespace Nodes

def leaves (table : Table) : Nodes := table.map fun (key, value) => (key, .leaf value)

theorem lookup_append_of_new {nodes : Nodes} {key : String} (new : key ∉ nodes.map Prod.fst)
    (node : Node) : (nodes ++ [(key, node)]).lookup key = some node := by
  simp [List.lookup_append, Sorted.lookup_eq_none new]

theorem replace_append_of_new {nodes : Nodes} {key : String} (new : key ∉ nodes.map Prod.fst)
    (old node : Node) : replace key node (nodes ++ [(key, old)]) = nodes ++ [(key, node)] := by
  have others : replace key node nodes = nodes.map id := by
    refine List.map_congr_left fun entry member => ?_
    have other : entry.1 ≠ key := fun same => new (same ▸ List.mem_map_of_mem member)
    simp [other]
  rw [replace, List.map_append, ← replace, others]
  simp

theorem fill_pairsOf {nodes : Nodes} {table : Table}
    (distinct : (nodes.map Prod.fst ++ table.map Prod.fst).Nodup) :
    fill nodes (pairsOf table) = some (nodes ++ leaves table) := by
  induction table generalizing nodes with
  | nil => simp [fill, pairsOf, leaves]
  | cons entry table ih =>
    obtain ⟨key, value⟩ := entry
    have new : key ∉ nodes.map Prod.fst := fun old =>
      (List.nodup_append.1 distinct).2.2 key old key List.mem_cons_self rfl
    have bound : assign value [key] .dotted nodes = some (nodes ++ [(key, .leaf value)]) := by
      simp [assign, Sorted.lookup_eq_none new]
    have next : fill (nodes ++ [(key, .leaf value)]) (pairsOf table) =
        some (nodes ++ [(key, .leaf value)] ++ leaves table) := ih (by simpa using distinct)
    calc fill nodes (pairsOf ((key, value) :: table))
        = (assign value [key] .dotted nodes).bind fun nodes => fill nodes (pairsOf table) := rfl
      _ = some (nodes ++ leaves ((key, value) :: table)) := by
        rw [bound, Option.bind_some, next]
        simp [leaves]

def tablesNode (tables : List Table) : Node := .tables (tables.map leaves)

theorem addSection_element {nodes : Nodes} {key : String} {table : Table}
    (distinct : (table.map Prod.fst).Nodup) :
    addSection nodes ⟨.element [key], pairsOf table⟩ =
      match nodes.lookup key with
      | none => some (nodes ++ [(key, tablesNode [table])])
      | some (.tables elements) =>
        some (replace key (.tables (elements ++ [leaves table])) nodes)
      | some _ => none := by
  have filled : fill [] (pairsOf table) = some (leaves table) :=
    fill_pairsOf (by simpa using distinct)
  have opened : addSection nodes ⟨.element [key], pairsOf table⟩ =
      openElement key (pairsOf table) nodes := rfl
  rw [opened, openElement, filled]
  rfl

variable {nodes : Nodes} {key : String} {tables : List Table}

theorem foldlM_opened (new : key ∉ nodes.map Prod.fst) (before : List Table)
    (distinct : ∀ table ∈ tables, (table.map Prod.fst).Nodup) :
    (sectionsOf (key, tables)).foldlM addSection (nodes ++ [(key, tablesNode before)]) =
      some (nodes ++ [(key, tablesNode (before ++ tables))]) := by
  induction tables generalizing before with
  | nil => simp [sectionsOf]
  | cons table tables ih =>
    obtain ⟨single, distinct⟩ := List.forall_mem_cons.1 distinct
    have step : addSection (nodes ++ [(key, tablesNode before)]) ⟨.element [key], pairsOf table⟩ =
        some (nodes ++ [(key, tablesNode (before ++ [table]))]) := by
      rw [addSection_element single, lookup_append_of_new new]
      simp [tablesNode, replace_append_of_new new]
    have shape : sectionsOf (key, table :: tables) =
        ⟨.element [key], pairsOf table⟩ :: sectionsOf (key, tables) := rfl
    rw [shape, List.foldlM_cons, step]
    simpa using ih (before ++ [table]) distinct

theorem foldlM_sectionsOf (new : key ∉ nodes.map Prod.fst) (goes : tables ≠ [])
    (distinct : ∀ table ∈ tables, (table.map Prod.fst).Nodup) :
    (sectionsOf (key, tables)).foldlM addSection nodes =
      some (nodes ++ [(key, tablesNode tables)]) := by
  obtain ⟨table, tables, rfl⟩ := List.exists_cons_of_ne_nil goes
  obtain ⟨single, distinct⟩ := List.forall_mem_cons.1 distinct
  have step : addSection nodes ⟨.element [key], pairsOf table⟩ =
      some (nodes ++ [(key, tablesNode [table])]) := by
    rw [addSection_element single, Sorted.lookup_eq_none new]
  have shape : sectionsOf (key, table :: tables) =
      ⟨.element [key], pairsOf table⟩ :: sectionsOf (key, tables) := rfl
  rw [shape, List.foldlM_cons, step]
  exact foldlM_opened new [table] distinct

theorem foldlM_arrays {arrays : List (String × List Table)}
    (distinct : (nodes.map Prod.fst ++ arrays.map Prod.fst).Nodup)
    (sound : ∀ array ∈ arrays, array.2 ≠ [] ∧ ∀ table ∈ array.2, (table.map Prod.fst).Nodup) :
    (arrays.flatMap sectionsOf).foldlM addSection nodes =
      some (nodes ++ arrays.map fun (key, tables) => (key, tablesNode tables)) := by
  induction arrays generalizing nodes with
  | nil => simp
  | cons array arrays ih =>
    obtain ⟨key, tables⟩ := array
    obtain ⟨first, sound⟩ := List.forall_mem_cons.1 sound
    have new : key ∉ nodes.map Prod.fst := fun old =>
      (List.nodup_append.1 distinct).2.2 key old key List.mem_cons_self rfl
    have later :
        (arrays.flatMap sectionsOf).foldlM addSection (nodes ++ [(key, tablesNode tables)]) =
          some (nodes ++ [(key, tablesNode tables)] ++
            arrays.map fun (key, tables) => (key, tablesNode tables)) :=
      ih (by simpa using distinct) sound
    rw [List.flatMap_cons, List.foldlM_append, foldlM_sectionsOf new first.1 first.2]
    simpa using later

end Nodes

theorem tableOfNodes_eq_map (nodes : Nodes) :
    tableOfNodes nodes = nodes.map fun (key, node) => (key, node.value) := by
  induction nodes with
  | nil => rfl
  | cons entry nodes ih => rw [tableOfNodes, ih]; rfl

theorem tableOfNodes_leaves (table : Table) : tableOfNodes (Nodes.leaves table) = table := by
  simp [tableOfNodes_eq_map, Nodes.leaves, Function.comp_def, Node.value]

theorem value_tablesNode (tables : List Table) :
    (Nodes.tablesNode tables).value = .array (tables.map .table) := by
  have each : tablesOfNodes (tables.map Nodes.leaves) = tables.map .table := by
    induction tables with
    | nil => rfl
    | cons table tables ih => simp [tablesOfNodes, tableOfNodes_leaves, ih]
  rw [Nodes.tablesNode, Node.value, each]

def tableWith (top : Table) (arrays : List (String × List Table)) : Table :=
  top ++ arrays.map fun (key, tables) => (key, .array (tables.map .table))

theorem tableOfStatements?_eq {top : Table} {arrays : List (String × List Table)}
    (distinct : (top.map Prod.fst ++ arrays.map Prod.fst).Nodup)
    (sound : ∀ array ∈ arrays, array.2 ≠ [] ∧ ∀ table ∈ array.2, (table.map Prod.fst).Nodup) :
    tableOfStatements? (assignments top ++ arrays.flatMap elementsOf) =
      some (tableWith top arrays) := by
  have keys : (Nodes.leaves top).map Prod.fst = top.map Prod.fst := by
    simp [Nodes.leaves]
  have filled : Nodes.fill [] (pairsOf top) = some (Nodes.leaves top) :=
    Nodes.fill_pairsOf (List.nodup_append.1 distinct).1
  have later := Nodes.foldlM_arrays (keys.symm ▸ distinct) sound
  have finished : tableOfNodes (Nodes.leaves top ++
      arrays.map fun (key, tables) => (key, Nodes.tablesNode tables)) = tableWith top arrays := by
    have split := tableOfNodes_leaves top
    rw [tableOfNodes_eq_map] at split ⊢
    simp [tableWith, split, value_tablesNode]
  rw [tableOfStatements?, sections_assignments, sections_arrays]
  simp [filled, later, finished]

end VersionAlignment.Toml
