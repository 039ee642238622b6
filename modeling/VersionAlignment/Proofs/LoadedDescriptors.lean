import Mathlib.Data.List.Forall2
import Mathlib.Data.List.Nodup
import VersionAlignment.Descriptor.Read
import VersionAlignment.Proofs.CoordinateTexts
import VersionAlignment.Proofs.Outcomes

set_option autoImplicit false

namespace VersionAlignment

structure ExclusionsGive (texts : List String) (exclusions : List Exclusion) : Prop where
  accepted : ∀ text ∈ texts, (Exclusion.ofText? text).isSome
  members : ∀ e, e ∈ exclusions ↔ ∃ text ∈ texts, Exclusion.ofText? text = some e
  ascending : Sorted.Ascending exclusions

theorem exclusionsGive_of_read {texts : List String} {exclusions : List Exclusion}
    (reads : readExclusions texts = .ok exclusions) : ExclusionsGive texts exclusions := by
  obtain ⟨each, parsed, rfl⟩ := map_eq_ok.1 reads
  have same : texts.map Exclusion.ofText? = each.map some := by
    rw [← List.forall₂_eq_eq_eq, List.forall₂_map_left_iff, List.forall₂_map_right_iff]
    exact (mapM_eq_ok.1 parsed).imp fun _ _ => Exclusion.ofText_eq_ok.1
  have members (e : Exclusion) : e ∈ Sorted.ofList each ↔ e ∈ each :=
    Sorted.mem_union.trans (by simp)
  refine ⟨fun text member => ?_, fun e => ?_, Sorted.ascending_union List.Pairwise.nil⟩
  · have image : Exclusion.ofText? text ∈ each.map some := same ▸ List.mem_map_of_mem member
    obtain ⟨e, -, is⟩ := List.mem_map.1 image
    simp [← is]
  · calc e ∈ Sorted.ofList each ↔ some e ∈ each.map some := by simp [members]
      _ ↔ ∃ text ∈ texts, Exclusion.ofText? text = some e := by rw [← same, List.mem_map]

structure DependencyEntry.Gives (e : DependencyEntry) (d : Declaration) : Prop where
  coordinate : d.coordinate = e.coordinate
  version : d.version = e.version
  scope : d.scope = e.scope
  place : d.place = if e.managed then .management else .dependencies
  exclusions : ExclusionsGive e.exclusions d.exclusions

theorem DependencyEntry.gives_of_read {e : DependencyEntry} {d : Declaration}
    (reads : e.read = .ok d) : e.Gives d := by
  obtain ⟨exclusions, excluded, rfl⟩ := map_eq_ok.1 reads
  exact ⟨rfl, rfl, rfl, rfl, exclusionsGive_of_read excluded⟩

structure NodeEntry.Gives (e : NodeEntry) (node : GraphNode) : Prop where
  artifact : Artifact.ofText? e.artifact = some node.artifact
  scope : node.scope = e.scope
  exclusions : ExclusionsGive e.exclusions node.exclusions
  leaf : node.children = []

theorem NodeEntry.gives_of_read {e : NodeEntry} {node : GraphNode} (reads : e.read = .ok node) :
    e.Gives node := by
  obtain ⟨artifact, parsed, reads⟩ := bind_eq_ok.1 reads
  obtain ⟨exclusions, excluded, reads⟩ := bind_eq_ok.1 reads
  cases reads
  exact ⟨Artifact.ofText_eq_ok.1 parsed, rfl, exclusionsGive_of_read excluded, rfl⟩

/-- The module is the one that is written. Its parent is the module that has the identity of the
written parent, or lies outside if there is none. -/
structure ModuleEntry.Gives (p : Project) (e : ModuleEntry) (m : Module) : Prop where
  identity : m.identity.key = e.identity
  isRoot : m.isRoot = e.isRoot
  properties : m.properties = e.properties
  declarations : List.Forall₂ DependencyEntry.Gives e.dependencies m.declarations
  orphan : e.parent = none → m.parent = none
  parent : ∀ text, e.parent = some text → ∃ a, Artifact.ofText? text = some a ∧
    (∀ index, m.parent = some (.inside index) ↔
      ∃ n, p.module? index = some n ∧ n.identity.key = a.key) ∧
    (∀ b, m.parent = some (.outside b) ↔ b = a ∧ ∀ n ∈ p.modules, n.identity.key ≠ a.key)

theorem duplicateIdentity?_eq_none {seen : List Identity} {modules : List ModuleEntry} :
    duplicateIdentity? seen modules = none ↔
      (modules.map (·.identity)).Nodup ∧ ∀ m ∈ modules, m.identity ∉ seen := by
  induction modules generalizing seen with
  | nil => simp [duplicateIdentity?]
  | cons m rest ih =>
    rw [duplicateIdentity?]
    split
    · next before => simp [before]
    · next new =>
      have apart : (∀ n ∈ rest, n.identity ∉ m.identity :: seen) ↔
          m.identity ∉ rest.map (·.identity) ∧ ∀ n ∈ rest, n.identity ∉ seen := by
        simp only [List.mem_cons, not_or, List.mem_map, not_exists, not_and]
        exact ⟨fun all => ⟨fun n member => (all n member).1, fun n member => (all n member).2⟩,
          fun both n member => ⟨both.1 n member, both.2 n member⟩⟩
      rw [ih, apart, List.map_cons, List.nodup_cons, List.forall_mem_cons]
      tauto

theorem findIdx?_identity {modules : List ModuleEntry} {key : Identity} {index : Nat}
    (distinct : (modules.map (·.identity)).Nodup) :
    modules.findIdx? (·.identity == key) = some index ↔
      (modules.map (·.identity))[index]? = some key := by
  have keys : modules.findIdx? (·.identity == key) =
      (modules.map (·.identity)).findIdx? (· == key) := by
    rw [List.findIdx?_map]
    rfl
  rw [keys, List.findIdx?_eq_some_iff_getElem, List.getElem?_eq_some_iff]
  refine exists_congr fun inside => ?_
  rw [beq_iff_eq]
  -- The first place of an identity is its only one.
  refine ⟨fun first => first.1, fun here => ⟨here, fun j before => ?_⟩⟩
  rw [beq_iff_eq, ← here, distinct.getElem_inj_iff]
  omega

theorem DescriptorEntry.read_eq_ok {e : DescriptorEntry} {d : Descriptor}
    (reads : e.read = .ok d) : (e.modules.map (·.identity)).Nodup ∧
    ∃ modules, List.Forall₂ (fun entry pair => entry.read e.modules = .ok pair) e.modules modules ∧
      Project.ofModules (modules.map (·.1)) = .ok d.project ∧
      d.graphs = recordedGraphs modules ∧
      List.Forall₂ (fun entry o => entry.read = .ok o) e.outsideParents d.outsideParents := by
  unfold read at reads
  cases duplicate : duplicateIdentity? [] e.modules with
  | some identity =>
    rw [duplicate] at reads
    cases reads
  | none =>
    rw [duplicate] at reads
    obtain ⟨modules, each, reads⟩ := bind_eq_ok.1 reads
    obtain ⟨outside, above, reads⟩ := bind_eq_ok.1 reads
    obtain ⟨project, built, reads⟩ := bind_eq_ok.1 reads
    cases reads
    refine ⟨(duplicateIdentity?_eq_none.1 duplicate).1, modules, mapM_eq_ok.1 each, ?_, rfl,
      mapM_eq_ok.1 above⟩
    cases made : Project.ofModules (modules.map (·.1)) with
    | error _ =>
      rw [made] at built
      cases built
    | ok p =>
      rw [made] at built
      cases built
      rfl

theorem Project.ofModules_eq_ok {modules : List Module} {p : Project}
    (built : ofModules modules = .ok p) : p.modules = modules ∧
    (p.module? p.root).isSome ∧
    ∀ index m, p.module? index = some m → (m.isRoot = true ↔ index = p.root) := by
  unfold ofModules at built
  split at built
  · cases built
  · split at built
    · cases built
    · next first root roots =>
      cases built
      have isRoot {index : Nat} {m : Module} : modules[index]? = some m ∧ m.isRoot = true ↔
          m = first ∧ index = root := by
        have member : (m, index) ∈ modules.zipIdx.filter (·.1.isRoot) ↔
            m = first ∧ index = root := by simp [roots]
        rw [← member, List.mem_filter, List.mem_zipIdx_iff_getElem?]
      have inside := (isRoot.2 ⟨rfl, rfl⟩).1
      refine ⟨rfl, by simp [module?, inside], fun index m present => ?_⟩
      constructor
      · exact fun marked => (isRoot.1 ⟨present, marked⟩).2
      · rintro rfl
        obtain rfl : m = first := Option.some.inj (present.symm.trans inside)
        exact (isRoot.2 ⟨rfl, rfl⟩).2
    · cases built

theorem Descriptor.identified_eq {d : Descriptor} {modules : List (Module × Forest)}
    (ordered : d.project.modules = modules.map (·.1)) (recorded : d.graphs = recordedGraphs modules) :
    d.identified = modules.filterMap fun pair =>
      if pair.2.isEmpty then none else some (pair.1.identity, pair.2) := by
  rw [identified, recorded, recordedGraphs, List.filterMap_filterMap]
  conv_rhs => rw [← List.zipIdx_map_fst 0 modules, List.filterMap_map]
  refine List.filterMap_congr fun entry member => ?_
  obtain ⟨⟨m, graph⟩, index⟩ := entry
  have here : modules[index]? = some (m, graph) := List.mem_zipIdx_iff_getElem?.1 member
  cases graph <;> simp [Project.module?, ordered, here]

theorem Descriptor.graph_eq {d : Descriptor} {modules : List (Module × Forest)}
    (ordered : d.project.modules = modules.map (·.1)) (recorded : d.graphs = recordedGraphs modules)
    (distinct : (modules.map (·.1.identity)).Nodup) {m : Module} {graph : Forest}
    (member : (m, graph) ∈ modules) : d.graph m = graph := by
  have entries := identified_eq ordered recorded
  have keys : (d.identified.map Prod.fst).Sublist (modules.map (·.1.identity)) := by
    rw [entries]
    clear entries recorded ordered distinct member
    induction modules with
    | nil => exact .slnil
    | cons pair rest ih =>
      obtain ⟨n, _ | ⟨node, nodes⟩⟩ := pair
      · exact ih.cons _
      · exact ih.cons_cons _
  have different : (d.identified.reverse.map Prod.fst).Nodup := by
    rw [List.map_reverse, List.nodup_reverse]
    exact distinct.sublist keys
  rw [Descriptor.graph]
  cases graph with
  | nil =>
    -- Nothing is recorded for the module, nor for another one with its identity.
    have missing : d.identified.reverse.lookup m.identity = none := by
      refine Sorted.lookup_eq_none fun listed => ?_
      obtain ⟨entry, inside, same⟩ := List.mem_map.1 listed
      rw [List.mem_reverse, entries, List.mem_filterMap] at inside
      obtain ⟨⟨n, graph⟩, other, recorded⟩ := inside
      cases graph with
      | nil => cases recorded
      | cons node nodes =>
        cases recorded
        cases List.inj_on_of_nodup_map distinct member other same.symm
    rw [missing]
    rfl
  | cons node nodes =>
    have here : (m.identity, node :: nodes) ∈ d.identified.reverse := by
      rw [List.mem_reverse, entries, List.mem_filterMap]
      exact ⟨_, member, rfl⟩
    rw [Sorted.lookup_of_mem different here]
    rfl

namespace ModuleEntry

variable {all : List ModuleEntry} {e : ModuleEntry} {m : Module} {graph : Forest}

theorem read_eq_ok (reads : e.read all = .ok (m, graph)) :
    readParent all e.parent = .ok m.parent ∧
    List.Forall₂ DependencyEntry.Gives e.dependencies m.declarations ∧
    List.Forall₂ NodeEntry.Gives e.graph graph ∧
    m.identity.key = e.identity ∧ m.isRoot = e.isRoot ∧ m.properties = e.properties := by
  obtain ⟨parent, above, reads⟩ := bind_eq_ok.1 reads
  obtain ⟨declarations, declared, reads⟩ := bind_eq_ok.1 reads
  obtain ⟨nodes, recorded, reads⟩ := bind_eq_ok.1 reads
  cases reads
  exact ⟨above, (mapM_eq_ok.1 declared).imp fun _ _ => DependencyEntry.gives_of_read,
    (mapM_eq_ok.1 recorded).imp fun _ _ => NodeEntry.gives_of_read, rfl, rfl, rfl⟩

theorem gives_of_read {p : Project} (distinct : (all.map (·.identity)).Nodup)
    (same : p.modules.map (·.identity.key) = all.map (·.identity))
    (reads : e.read all = .ok (m, graph)) : e.Gives p m := by
  obtain ⟨above, declarations, -, identity, isRoot, properties⟩ := read_eq_ok reads
  refine ⟨identity, isRoot, properties, declarations, fun nothing => ?_, fun text written => ?_⟩
  · rw [nothing] at above
    exact (Except.ok.inj above).symm
  · rw [written, readParent] at above
    obtain ⟨a, parsed, parent⟩ := map_eq_ok.1 above
    have here (index : Nat) : all.findIdx? (·.identity == a.key) = some index ↔
        ∃ n, p.module? index = some n ∧ n.identity.key = a.key := by
      rw [findIdx?_identity distinct, ← same, List.getElem?_map, Option.map_eq_some_iff]
      rfl
    have nowhere : all.findIdx? (·.identity == a.key) = none ↔
        ∀ n ∈ p.modules, n.identity.key ≠ a.key := by
      rw [Option.eq_none_iff_forall_ne_some]
      constructor
      · intro unfound n member same
        obtain ⟨index, present⟩ := List.mem_iff_getElem?.1 member
        exact unfound index ((here index).2 ⟨n, present, same⟩)
      · intro apart index found
        obtain ⟨n, present, same⟩ := (here index).1 found
        exact apart n (List.mem_of_getElem? present) same
    refine ⟨a, Artifact.ofText_eq_ok.1 parsed, fun index => ?_, fun b => ?_⟩
    · rw [← here, ← parent]
      cases all.findIdx? (·.identity == a.key) <;> simp
    · rw [← nowhere, ← parent]
      cases all.findIdx? (·.identity == a.key) <;> simp [eq_comm]

end ModuleEntry

namespace Descriptor

structure Loads (e : DescriptorEntry) (d : Descriptor) : Prop where
  modules : List.Forall₂ (ModuleEntry.Gives d.project) e.modules d.project.modules
  distinct : (d.project.modules.map (·.identity.key)).Nodup
  rooted : (d.project.module? d.project.root).isSome
  root : ∀ index m, d.project.module? index = some m → (m.isRoot = true ↔ index = d.project.root)
  graphs : List.Forall₂ (fun entry m => List.Forall₂ NodeEntry.Gives entry.graph (d.graph m))
    e.modules d.project.modules

theorem loads_of_read {e : DescriptorEntry} {d : Descriptor} (reads : e.read = .ok d) :
    d.Loads e := by
  obtain ⟨distinct, modules, each, built, recorded, -⟩ := DescriptorEntry.read_eq_ok reads
  obtain ⟨ordered, rooted, root⟩ := Project.ofModules_eq_ok built
  have same : d.project.modules.map (·.identity.key) = e.modules.map (·.identity) := by
    rw [ordered, List.map_map, eq_comm, ← List.forall₂_eq_eq_eq, List.forall₂_map_left_iff,
      List.forall₂_map_right_iff]
    exact each.imp fun _ _ reads => (ModuleEntry.read_eq_ok reads).2.2.2.1.symm
  -- Different identities decide which module is the parent, and whose a graph is.
  have keys : (d.project.modules.map (·.identity.key)).Nodup := same ▸ distinct
  have different : (modules.map (·.1.identity)).Nodup := by
    rw [ordered, List.map_map] at keys
    exact List.Nodup.of_map Artifact.key (by rwa [List.map_map])
  have served : d.project.modules.map (fun m => (m, d.graph m)) = modules := by
    rw [ordered, List.map_map]
    refine (List.map_congr_left fun pair member => ?_).trans (List.map_id modules)
    exact congrArg (Prod.mk pair.1) (graph_eq ordered recorded different member)
  rw [← served, List.forall₂_map_right_iff] at each
  exact ⟨each.imp fun _ _ => ModuleEntry.gives_of_read distinct same, keys, rooted, root,
    each.imp fun _ _ reads => (ModuleEntry.read_eq_ok reads).2.2.1⟩

theorem ofText_loads {text : String} {d : Descriptor} (accepted : ofText text = .ok d) :
    ∃ e, (Toml.read? text).bind DescriptorEntry.ofTable? = some e ∧ d.Loads e := by
  unfold ofText at accepted
  split at accepted
  · next e written => exact ⟨e, written, loads_of_read accepted⟩
  · cases accepted

-- For evaluating what a document says. Its characters are taken as a list, since a literal is
-- decoded anew whenever its characters are asked for.
theorem read?_of_spelled {text : String} {cs : List Char} (spelled : text = String.ofList cs) :
    Toml.read? text = Toml.readChars? cs := by
  rw [spelled, Toml.read?, String.toList_ofList]

theorem accepts_of_spelled {α : Type} (text : String) (observe : Descriptor → α) (a : α)
    {cs : List Char} (spelled : text = String.ofList cs)
    (evaluates : ((Toml.readChars? cs).bind DescriptorEntry.ofTable?).bind
      (fun e => e.read.toOption.map observe) = some a) :
    ∃ d, ofText text = .ok d ∧ observe d = a := by
  obtain ⟨e, written, read⟩ := Option.bind_eq_some_iff.1 evaluates
  obtain ⟨d, given, rfl⟩ := Option.map_eq_some_iff.1 read
  refine ⟨d, ?_, rfl⟩
  rw [ofText, read?_of_spelled spelled, written]
  dsimp only
  cases outcome : e.read with
  | error _ =>
    rw [outcome] at given
    cases given
  | ok other =>
    rw [outcome] at given
    exact congrArg _ (Option.some.inj given)

def acmeText : String :=
  "[[modules]]
group_id = \"org.acme\"
artifact_id = \"core\"
version = \"1\"
parent = \"org.acme:acme:pom:1\"
graph = [\x7b artifact = \"io.netty:netty-buffer:4.1\" \x7d]
[[modules]]
group_id = \"org.acme\"
artifact_id = \"acme\"
version = \"1\"
parent = \"org.acme:acme:2\"
execution_root = true
"

set_option maxRecDepth 4000 in
theorem ofText_loads_acme : ∃ d, ofText acmeText = .ok d ∧ d.project.root = 1 ∧
    d.project.modules.map (·.parent) =
      [some (.inside 1), some (.outside ⟨⟨"org.acme", "acme", "jar", none⟩, "2"⟩)] ∧
    d.project.modules.map (fun m => (d.graph m).map (·.artifact.text)) =
      [["io.netty:netty-buffer:4.1"], []] ∧
    ∃ e, (Toml.read? acmeText).bind DescriptorEntry.ofTable? = some e ∧ d.Loads e := by
  have evaluated : ∃ d, ofText acmeText = .ok d ∧
      (d.project.root, d.project.modules.map (·.parent),
        d.project.modules.map fun m => (d.graph m).map (·.artifact.text)) =
      (1, [some (.inside 1), some (.outside ⟨⟨"org.acme", "acme", "jar", none⟩, "2"⟩)],
        [["io.netty:netty-buffer:4.1"], []]) := by
    refine accepts_of_spelled acmeText _ _ rfl ?_
    decide +kernel
  obtain ⟨d, accepted, observed⟩ := evaluated
  simp only [Prod.mk.injEq] at observed
  obtain ⟨root, parents, graphs⟩ := observed
  exact ⟨d, accepted, root, parents, graphs, ofText_loads accepted⟩

end Descriptor

end VersionAlignment
