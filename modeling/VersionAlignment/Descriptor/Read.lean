import VersionAlignment.Descriptor.Basic
import VersionAlignment.ReadError
import VersionAlignment.Sorted
import VersionAlignment.Toml.Decode

set_option autoImplicit false

namespace VersionAlignment

open Toml

structure DependencyEntry where
  coordinate : Coordinate
  version : Option String
  scope : Option String
  managed : Bool
  exclusions : List String
  deriving Repr

structure NodeEntry where
  artifact : String
  scope : Option String
  exclusions : List String
  deriving Repr

structure ModuleEntry where
  group : String
  artifact : String
  version : String
  isRoot : Bool
  parent : Option String
  properties : List (String × String)
  dependencies : List DependencyEntry
  graph : List NodeEntry
  deriving Repr

structure OutsideEntry where
  artifact : Artifact
  parent : Option String
  properties : List (String × String)
  deriving Repr

def noTexts : List String := []

def DependencyEntry.ofValue? (v : Value) : Option DependencyEntry := do
  let fields ← Fields.ofValue? v
  let group ← fields.required 0 "group_id" Value.string?
  let artifact ← fields.required 1 "artifact_id" Value.string?
  let version ← fields.optional 2 "version" Value.string?
  let scope ← fields.optional 3 "scope" Value.string?
  let kind ← fields.optional 4 "type" Value.string?
  let classifier ← fields.optional 5 "classifier" Value.string?
  let managed ← fields.withDefault 6 "managed" false Value.boolean?
  let exclusions ← fields.withDefault 7 "exclusions" noTexts (Value.list? Value.string?)
  return ⟨⟨group, artifact, kind.getD "jar", classifier⟩, version, scope, managed, exclusions⟩

def NodeEntry.ofValue? (v : Value) : Option NodeEntry := do
  let fields ← Fields.ofValue? v
  let artifact ← fields.required 0 "artifact" Value.string?
  let scope ← fields.optional 1 "scope" Value.string?
  let exclusions ← fields.withDefault 2 "exclusions" noTexts (Value.list? Value.string?)
  return ⟨artifact, scope, exclusions⟩

def ModuleEntry.ofValue? (v : Value) : Option ModuleEntry := do
  let fields ← Fields.ofValue? v
  let group ← fields.required 0 "group_id" Value.string?
  let artifact ← fields.required 1 "artifact_id" Value.string?
  let version ← fields.required 2 "version" Value.string?
  let isRoot ← fields.withDefault 3 "execution_root" false Value.boolean?
  let parent ← fields.optional 4 "parent" Value.string?
  let properties ← fields.withDefault 5 "properties" [] Value.strings?
  let dependencies ← fields.withDefault 6 "dependencies" [] (Value.list? DependencyEntry.ofValue?)
  let graph ← fields.withDefault 7 "graph" [] (Value.list? NodeEntry.ofValue?)
  return ⟨group, artifact, version, isRoot, parent, Sorted.mapOfList properties, dependencies,
    graph⟩

def OutsideEntry.ofValue? (v : Value) : Option OutsideEntry := do
  let fields ← Fields.ofValue? v
  let group ← fields.required 0 "group_id" Value.string?
  let artifact ← fields.required 1 "artifact_id" Value.string?
  let version ← fields.required 2 "version" Value.string?
  let parent ← fields.optional 3 "parent" Value.string?
  let properties ← fields.withDefault 4 "properties" [] Value.strings?
  return ⟨⟨⟨group, artifact, "jar", none⟩, version⟩, parent, Sorted.mapOfList properties⟩

structure DescriptorEntry where
  modules : List ModuleEntry := []
  outsideParents : List OutsideEntry := []
  deriving Repr

def DescriptorEntry.ofTable? (table : Table) : Option DescriptorEntry := do
  let fields := Fields.named table
  let modules ← fields.withDefault 0 "modules" [] (Value.list? ModuleEntry.ofValue?)
  let outsideParents ←
    fields.withDefault 1 "external_parents" [] (Value.list? OutsideEntry.ofValue?)
  return ⟨modules, outsideParents⟩

abbrev Identity := String × String × String

def ModuleEntry.identity (m : ModuleEntry) : Identity := (m.group, m.artifact, m.version)

def Artifact.key (a : Artifact) : Identity := (a.coordinate.group, a.coordinate.artifact, a.version)

def duplicateIdentity? (seen : List Identity) : List ModuleEntry → Option Identity
  | [] => none
  | m :: rest =>
    if m.identity ∈ seen then some m.identity else duplicateIdentity? (m.identity :: seen) rest

def readExclusions (texts : List String) : Except ReadError (List Exclusion) :=
  (texts.mapM Exclusion.ofText).map Sorted.ofList

def readParent (modules : List ModuleEntry) : Option String → Except ReadError (Option Parent)
  | none => .ok none
  | some text =>
    (Artifact.ofText text).map fun parent =>
      -- A module is found by group, artifact and version, however the text goes on.
      match modules.findIdx? (·.identity == parent.key) with
      | some index => some (.inside index)
      | none => some (.outside parent)

def DependencyEntry.read (e : DependencyEntry) : Except ReadError Declaration :=
  (readExclusions e.exclusions).map fun exclusions =>
    ⟨e.coordinate, e.version, e.scope, exclusions,
      if e.managed then .management else .dependencies⟩

def NodeEntry.read (e : NodeEntry) : Except ReadError GraphNode := do
  let artifact ← Artifact.ofText e.artifact
  let exclusions ← readExclusions e.exclusions
  return ⟨artifact, e.scope, exclusions, []⟩

def ModuleEntry.read (modules : List ModuleEntry) (e : ModuleEntry) :
    Except ReadError (Module × Forest) := do
  let parent ← readParent modules e.parent
  let declarations ← e.dependencies.mapM DependencyEntry.read
  let graph ← e.graph.mapM NodeEntry.read
  return (⟨e.group, e.artifact, e.version, e.isRoot, parent, e.properties, declarations⟩, graph)

def OutsideEntry.read (e : OutsideEntry) : Except ReadError OutsideParent := do
  let parent ← e.parent.mapM Artifact.ofText
  return ⟨e.artifact, parent, e.properties⟩

def recordedGraphs (modules : List (Module × Forest)) : List (Nat × Forest) :=
  modules.zipIdx.filterMap fun ((_, graph), index) =>
    if graph.isEmpty then none else some (index, graph)

def DescriptorEntry.read (e : DescriptorEntry) : Except ReadError Descriptor := do
  if let some (group, artifact, version) := duplicateIdentity? [] e.modules then
    throw (.duplicateModule (group ++ ":" ++ artifact ++ ":" ++ version))
  -- The first entry that cannot be read decides the error.
  let modules ← e.modules.mapM (ModuleEntry.read e.modules)
  let outsideParents ← e.outsideParents.mapM OutsideEntry.read
  let project ← (Project.ofModules (modules.map (·.1))).mapError ReadError.project
  return ⟨project, outsideParents, recordedGraphs modules⟩

def Descriptor.ofText (document : String) : Except ReadError Descriptor :=
  match (Toml.read? document).bind DescriptorEntry.ofTable? with
  | some e => e.read
  | none => .error .malformed

end VersionAlignment
