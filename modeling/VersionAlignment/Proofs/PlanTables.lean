import VersionAlignment.Plan.Read
import VersionAlignment.Proofs.WrittenTables

set_option autoImplicit false

namespace VersionAlignment

open Toml

namespace Toml

theorem textsOfMoments_eq_map (values : List Value) :
    textsOfMoments values = values.map Value.momentsAsText := by
  induction values with
  | nil => rfl
  | cons value values ih => rw [textsOfMoments, ih]; rfl

theorem entryTextsOfMoments_eq_map (table : Table) :
    entryTextsOfMoments table = table.map fun (key, value) => (key, value.momentsAsText) := by
  induction table with
  | nil => rfl
  | cons entry table ih => rw [entryTextsOfMoments, ih]; rfl

def Value.IsPlain (v : Value) : Prop := v.momentsAsText = v

theorem Value.isPlain_string (s : String) : IsPlain (.string s) := rfl

theorem Value.isPlain_array {values : List Value} (plain : ∀ v ∈ values, v.IsPlain) :
    IsPlain (.array values) := by
  have same : values.map momentsAsText = values.map id := List.map_congr_left plain
  rw [IsPlain, momentsAsText, textsOfMoments_eq_map, same, List.map_id]

theorem entryTextsOfMoments_eq {table : Table} (plain : ∀ entry ∈ table, entry.2.IsPlain) :
    entryTextsOfMoments table = table := by
  rw [entryTextsOfMoments_eq_map]
  have same : (table.map fun (key, value) => (key, value.momentsAsText)) = table.map id :=
    List.map_congr_left fun entry member => Prod.ext rfl (plain entry member)
  rw [same, List.map_id]

theorem Value.isPlain_table {table : Table} (plain : ∀ entry ∈ table, entry.2.IsPlain) :
    IsPlain (.table table) := by
  rw [IsPlain, momentsAsText, entryTextsOfMoments_eq plain]

def texts (items : List String) : Value := .array (items.map .string)

theorem Value.isPlain_texts (items : List String) : IsPlain (texts items) := by
  refine isPlain_array fun v member => ?_
  obtain ⟨s, -, rfl⟩ := List.mem_map.1 member
  exact isPlain_string s

theorem Value.list?_map {α : Type} {read : Value → Option α} {write : α → Value} {items : List α}
    (back : ∀ item ∈ items, read (write item) = some item) :
    Value.list? read (.array (items.map write)) = some items := by
  rw [list?]
  induction items with
  | nil => rfl
  | cons item items ih =>
    obtain ⟨first, back⟩ := List.forall_mem_cons.1 back
    simp [first, ih back]

end Toml

namespace Plan

def textEntries (pairs : List (String × String)) : Table :=
  pairs.map fun (key, s) => (key, .string s)

def changeEntries : PlannedChange → Table
  | .setProperty owner name value =>
    textEntries [("op", "set_property"), ("module", owner), ("name", name), ("value", value)]
  | .injectProperty owner name value =>
    textEntries [("op", "inject_property"), ("module", owner), ("name", name), ("value", value)]
  | .overrideVersion owner dependency old new =>
    textEntries [("op", "override_inline_version"), ("module", owner),
      ("dependency", dependency), ("old_version", old), ("new_version", new)]
  | .manage owner dependency version former exclusions =>
    textEntries [("op", "inject_managed_dependency"), ("module", owner),
      ("dependency", dependency), ("version", version), ("original_version", former)] ++
      (if exclusions.isEmpty then [] else [("exclusions", texts exclusions)])

def unalignedEntries (u : PlannedUnaligned) : Table :=
  textEntries [("module", u.owner), ("dependency", u.dependency), ("current_version", u.current),
    ("channel_version", u.target), ("reason", u.reason.keyword)]

def changeKeys : List (List String) :=
  [["op", "module", "name", "value"],
    ["op", "module", "dependency", "old_version", "new_version"],
    ["op", "module", "dependency", "version", "original_version"],
    ["op", "module", "dependency", "version", "original_version", "exclusions"]]

theorem keys_changeEntries (c : PlannedChange) : (changeEntries c).map Prod.fst ∈ changeKeys := by
  cases c with
  | setProperty | injectProperty | overrideVersion =>
    simp [changeEntries, textEntries, changeKeys]
  | manage owner dependency version former exclusions =>
    cases exclusions <;> simp [changeEntries, textEntries, changeKeys]

theorem nodup_keys_changeEntries (c : PlannedChange) : ((changeEntries c).map Prod.fst).Nodup := by
  have each : ∀ keys ∈ changeKeys, keys.Nodup := by decide
  exact each _ (keys_changeEntries c)

def unalignedKeys : List String :=
  ["module", "dependency", "current_version", "channel_version", "reason"]

theorem keys_unalignedEntries (u : PlannedUnaligned) :
    (unalignedEntries u).map Prod.fst = unalignedKeys := rfl

theorem nodup_keys_unalignedEntries (u : PlannedUnaligned) :
    ((unalignedEntries u).map Prod.fst).Nodup := by
  have distinct : unalignedKeys.Nodup := by decide
  exact keys_unalignedEntries u ▸ distinct

def topEntries (plan : Plan) : Table :=
  [("version", .integer 1), ("not_covered", texts plan.notCovered)] ++
    (if plan.changes.isEmpty then [("changes", texts [])] else []) ++
    (if plan.unaligned.isEmpty then [("unaligned", texts [])] else [])

def arrays (plan : Plan) : List (String × List Table) :=
  arrayOf "changes" (plan.changes.map changeEntries) ++
    arrayOf "unaligned" (plan.unaligned.map unalignedEntries)

def table (plan : Plan) : Table := tableWith plan.topEntries plan.arrays

theorem nodup_keys_table (plan : Plan) :
    (plan.topEntries.map Prod.fst ++ plan.arrays.map Prod.fst).Nodup := by
  cases changed : plan.changes <;> cases behind : plan.unaligned <;>
    simp [topEntries, arrays, arrayOf, changed, behind]

theorem forall_mem_arrays {plan : Plan} {motive : Table → Prop}
    (changed : ∀ c, motive (changeEntries c)) (behind : ∀ u, motive (unalignedEntries u)) :
    ∀ array ∈ plan.arrays, array.2 ≠ [] ∧ ∀ table ∈ array.2, motive table := by
  intro array member
  rcases List.mem_append.1 member with member | member
  · obtain ⟨goes, rfl⟩ := mem_arrayOf.1 member
    exact ⟨goes, List.forall_mem_map.2 fun c _ => changed c⟩
  · obtain ⟨goes, rfl⟩ := mem_arrayOf.1 member
    exact ⟨goes, List.forall_mem_map.2 fun u _ => behind u⟩

theorem texts?_texts (items : List String) : texts? (texts items) = some items :=
  Value.list?_map fun _ _ => rfl

theorem changeOfValue?_changeEntries (c : PlannedChange) :
    changeOfValue? (.table (changeEntries c)) = some c := by
  cases c with
  | setProperty owner name value => rfl
  | injectProperty owner name value => rfl
  | overrideVersion owner dependency old new => rfl
  | manage owner dependency version former exclusions =>
    cases exclusions with
    | nil => rfl
    | cons first more =>
      have back : texts? (texts (first :: more)) = some (first :: more) := texts?_texts _
      calc changeOfValue? (.table (changeEntries
            (.manage owner dependency version former (first :: more))))
          = (texts? (texts (first :: more))).bind fun exclusions =>
              some (.manage owner dependency version former exclusions) := rfl
        _ = some (.manage owner dependency version former (first :: more)) := by rw [back]; rfl

theorem unalignedOfValue?_unalignedEntries (u : PlannedUnaligned) :
    unalignedOfValue? (.table (unalignedEntries u)) = some u := by
  obtain ⟨owner, dependency, current, target, reason⟩ := u
  cases reason <;> rfl

theorem isPlain_of_mem_textEntries {pairs : List (String × String)} {entry : String × Value}
    (member : entry ∈ textEntries pairs) : entry.2.IsPlain := by
  obtain ⟨pair, -, rfl⟩ := List.mem_map.1 member
  exact Value.isPlain_string _

theorem isPlain_of_mem_changeEntries {c : PlannedChange} {entry : String × Value}
    (member : entry ∈ changeEntries c) : entry.2.IsPlain := by
  cases c with
  | setProperty | injectProperty | overrideVersion => exact isPlain_of_mem_textEntries member
  | manage owner dependency version former exclusions =>
    rcases List.mem_append.1 member with text | listed
    · exact isPlain_of_mem_textEntries text
    · split at listed
      · cases listed
      · rw [List.mem_singleton.1 listed]
        exact Value.isPlain_texts _

theorem isPlain_of_mem_table {plan : Plan} {entry : String × Value} (member : entry ∈ plan.table) :
    entry.2.IsPlain := by
  rcases List.mem_append.1 member with top | later
  · have plain : ∀ entry ∈ plan.topEntries, entry.2.IsPlain := by
      have version : Value.IsPlain (.integer 1) := rfl
      cases changed : plan.changes <;> cases behind : plan.unaligned <;>
        simp [topEntries, changed, behind, version, Value.isPlain_texts]
    exact plain entry top
  · obtain ⟨array, inside, rfl⟩ := List.mem_map.1 later
    have plain : ∀ table ∈ array.2, ∀ entry ∈ table, entry.2.IsPlain :=
      (forall_mem_arrays (fun _ _ => isPlain_of_mem_changeEntries)
        (fun _ _ => isPlain_of_mem_textEntries) array inside).2
    refine Value.isPlain_array fun v member => ?_
    obtain ⟨table, there, rfl⟩ := List.mem_map.1 member
    exact Value.isPlain_table (plain table there)

theorem lookup_changes (plan : Plan) : plan.table.lookup "changes" =
    some (.array ((plan.changes.map changeEntries).map .table)) := by
  obtain ⟨notCovered, changes, unaligned⟩ := plan
  cases changes <;> cases unaligned <;> rfl

theorem lookup_unaligned (plan : Plan) : plan.table.lookup "unaligned" =
    some (.array ((plan.unaligned.map unalignedEntries).map .table)) := by
  obtain ⟨notCovered, changes, unaligned⟩ := plan
  cases changes <;> cases unaligned <;> rfl

theorem ofTable?_table (plan : Plan) : ofTable? plan.table = some plan := by
  have plain : entryTextsOfMoments plan.table = plan.table :=
    entryTextsOfMoments_eq fun entry member => isPlain_of_mem_table member
  have notCovered : plan.table.lookup "not_covered" = some (texts plan.notCovered) := rfl
  have changed : Value.list? changeOfValue?
      (.array ((plan.changes.map changeEntries).map .table)) = some plan.changes := by
    rw [List.map_map]
    exact Value.list?_map fun c _ => changeOfValue?_changeEntries c
  have behind : Value.list? unalignedOfValue?
      (.array ((plan.unaligned.map unalignedEntries).map .table)) = some plan.unaligned := by
    rw [List.map_map]
    exact Value.list?_map fun u _ => unalignedOfValue?_unalignedEntries u
  simp only [ofTable?, plain, Fields.withDefault, Fields.get?, notCovered, lookup_changes,
    lookup_unaligned, changed, behind, texts?_texts]
  rfl

end Plan

end VersionAlignment
