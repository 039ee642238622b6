import VersionAlignment.Proofs.PlanTables
import VersionAlignment.Proofs.WrittenLines

set_option autoImplicit false

namespace VersionAlignment

open Toml

namespace Plan

theorem yields_textAssignments {pairs : List (String × String)}
    (bare : ∀ key ∈ pairs.map Prod.fst, IsBare key) :
    Yields (textAssignments pairs).toList (assignments (textEntries pairs)) := by
  have shape : (textAssignments pairs).toList =
      pairs.flatMap fun pair => (assignment pair.1 (quotedValue pair.2)).toList := by
    simp [textAssignments, List.flatMap_map]
  have statements : assignments (textEntries pairs) =
      pairs.flatMap fun pair => [.assign [pair.1] (.string pair.2)] := by
    simp [assignments, textEntries, ← List.map_eq_flatMap, Function.comp_def]
  rw [shape, statements]
  refine Yields.join pairs fun pair member => ?_
  exact yields_assignment (bare pair.1 (List.mem_map_of_mem member)) (writes_quotedValue pair.2)

theorem isBare_of_mem_changeEntries (c : PlannedChange) :
    ∀ key ∈ (changeEntries c).map Prod.fst, IsBare key := by
  have each : ∀ keys ∈ changeKeys, ∀ key ∈ keys, IsBare key := by decide
  exact each _ (keys_changeEntries c)

theorem yields_changeText (c : PlannedChange) :
    Yields (changeText c).toList (assignments (changeEntries c)) := by
  have bare := isBare_of_mem_changeEntries c
  cases c with
  | setProperty | injectProperty | overrideVersion => exact yields_textAssignments bare
  | manage owner dependency version former exclusions =>
    rw [changeEntries, List.map_append] at bare
    rw [changeText, changeEntries, String.toList_append, assignments_append]
    refine Yields.append (yields_textAssignments fun key member =>
      bare key (List.mem_append_left _ member)) ?_
    split
    · exact yields_nil
    · exact yields_assignment (by decide) (writes_listText exclusions)

theorem yields_unalignedText (u : PlannedUnaligned) :
    Yields (unalignedText u).toList (assignments (unalignedEntries u)) := by
  have bare : ∀ key ∈ unalignedKeys, IsBare key := by decide
  exact yields_textAssignments (keys_unalignedEntries u ▸ bare)

theorem yields_blocks {α : Type} {name : String} (bare : IsBare name) {body : α → String}
    {entries : α → Table} (items : List α)
    (each : ∀ item ∈ items, Yields (body item).toList (assignments (entries item))) :
    Yields (String.join (items.map fun item => block name (body item))).toList
      (elementsOf (name, items.map entries)) := by
  have shape : (String.join (items.map fun item => block name (body item))).toList =
      items.flatMap fun item => (block name (body item)).toList := by
    simp [List.flatMap_map]
  have statements : elementsOf (name, items.map entries) =
      items.flatMap fun item => .header (.element [name]) :: assignments (entries item) := by
    simp [elementsOf, List.flatMap_map]
  rw [shape, statements]
  exact Yields.join items fun item member => yields_block bare (each item member)

theorem yields_empty {name : String} (bare : IsBare name) (empty : Bool) :
    Yields (if empty then assignment name (listText []) else "").toList
      (assignments (if empty then [(name, texts [])] else [])) := by
  cases empty with
  | false => exact yields_nil
  | true => exact yields_assignment bare (writes_listText [])

theorem yields_render (plan : Plan) : Yields plan.render.toList
    (assignments plan.topEntries ++ plan.arrays.flatMap elementsOf) := by
  have version : Yields (assignment "version" (toString formatVersion)).toList
      [.assign ["version"] (.integer 1)] :=
    yields_assignment (by decide) writes_formatVersion
  have notCovered : Yields (assignment "not_covered" (listText plan.notCovered)).toList
      [.assign ["not_covered"] (texts plan.notCovered)] :=
    yields_assignment (by decide) (writes_listText plan.notCovered)
  have changes : IsBare "changes" := by decide
  have unaligned : IsBare "unaligned" := by decide
  have top := ((version.append notCovered).append
    (yields_empty changes plan.changes.isEmpty)).append
      (yields_empty unaligned plan.unaligned.isEmpty)
  have changed := yields_blocks changes plan.changes fun c _ => yields_changeText c
  have behind := yields_blocks unaligned plan.unaligned fun u _ => yields_unalignedText u
  rw [arrays, List.flatMap_append, elementsOf_arrayOf, elementsOf_arrayOf, render, topEntries,
    ← List.append_assoc]
  simp only [String.toList_append, assignments_append]
  exact (top.append changed).append behind

theorem read?_render (plan : Plan) : Toml.read? plan.render = some plan.table := by
  have sound : ∀ array ∈ plan.arrays,
      array.2 ≠ [] ∧ ∀ table ∈ array.2, (table.map Prod.fst).Nodup :=
    forall_mem_arrays nodup_keys_changeEntries nodup_keys_unalignedEntries
  have unmarked : dropByteOrderMark plan.render.toList = plan.render.toList := by
    simp only [render, assignment, String.toList_append]
    rfl
  rw [Toml.read?, readChars?, unmarked, (yields_render plan).statements_eq]
  exact tableOfStatements?_eq (nodup_keys_table plan) sound

theorem ofText_render (plan : Plan) : ofText plan.render = .ok plan := by
  have version : plan.table.lookup "version" = some (.integer 1) := rfl
  rw [ofText, read?_render]
  simp only [version, ofTable?_table]

end Plan

end VersionAlignment
