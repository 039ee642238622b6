import VersionAlignment.Descriptor.Basic
import VersionAlignment.Proofs.Candidates
import VersionAlignment.Proofs.Injections
import VersionAlignment.Proofs.LoadedDescriptors
import VersionAlignment.Proofs.ManifestChannel
import VersionAlignment.Proofs.Simulation

set_option autoImplicit false

namespace VersionAlignment

open Property

theorem Setting.Manages.covered {s : Setting} {more : List Change} (managing : s.Manages more)
    {index : Nat} {d : Declaration} (member : d ∈ more.filterMap (·.managed? index)) :
    ∃ current target, d.version = some target ∧
      s.given.channel d.coordinate current = some target := by
  obtain ⟨change, present, adds⟩ := List.mem_filterMap.1 member
  obtain ⟨owner, c, target, _, _, current, rfl, covered⟩ := managing change present
  obtain ⟨-, rfl⟩ := Change.managed?_manage.1 adds
  exact ⟨current, target, rfl, covered⟩

namespace Run

variable {s : Setting} {more : List Change}

theorem beside_revised (index : Nat) (ds : List Declaration) :
    Beside s (ds.map (.declaration index))
      ((ds.map (·.revised index (declared s).changes.changes)).map (.declaration index)) := by
  induction ds with
  | nil => exact .nil
  | cons d ds ih => exact .declaration ih

theorem beside_managed (index : Nat) {ds : List Declaration}
    (covered : ∀ d ∈ ds, ∃ current target, d.version = some target ∧
      s.given.channel d.coordinate current = some target) :
    Beside s [] (ds.map (.declaration index)) := by
  induction ds with
  | nil => exact .nil
  | cons d ds ih =>
    obtain ⟨current, target, version, here⟩ := covered d List.mem_cons_self
    exact .managed version here (ih fun e member => covered e (List.mem_cons_of_mem _ member))

theorem beside_alignmentSteps (unforced : s.policy.Unforced) (managing : s.Manages more)
    (m : Module) (index : Nat) :
    Beside s (alignmentSteps s (m, index)) (alignmentSteps (s.next more)
      (m.revised index ((declared s).changes.changes ++ more), index)) := by
  have identity := (m.kept_revised index ((declared s).changes.changes ++ more)).1
  have group := congrArg (·.coordinate.group) identity
  have artifact := congrArg (·.coordinate.artifact) identity
  have ignoring : (s.next more).policy.ignoresModule
      (m.revised index ((declared s).changes.changes ++ more)) = s.policy.ignoresModule m := by
    simp only [Module.identity] at group artifact
    simp only [Policy.ignoresModule, group, artifact]
    rfl
  have final : Sound s (declared s) := sound_declared unforced
  simp only [alignmentSteps, ignoring]
  split
  · exact .note .nil
  · obtain ⟨later, firsts⟩ := firstDeclarations_append []
      (m.declarations.map (·.revised index (declared s).changes.changes))
      (more.filterMap (·.managed? index))
    have keys : ∀ d : Declaration, (d.revised index (declared s).changes.changes).key = d.key := by
      intro d
      have kept := d.kept_revised index (declared s).changes.changes
      simp [Declaration.key, kept.1, kept.2.1]
    rw [m.declarations_next index final.manages_nothing managing.all, firsts,
      firstDeclarations_map keys, List.map_append]
    have managed : Beside s [] ((firstDeclarations later
        (more.filterMap (·.managed? index))).map (.declaration index)) := by
      refine beside_managed index fun d member => ?_
      obtain ⟨-, before, after, split, -⟩ := mem_firstDeclarations.1 member
      have inside : d ∈ more.filterMap (·.managed? index) := by simp [split]
      exact managing.covered inside
    -- The managed declarations come after all others, where the first run has no steps.
    refine .note ?_
    simpa using (beside_revised index (firstDeclarations [] m.declarations)).append managed

theorem trails_declared (regular : s.Regular) (managing : s.Manages more) :
    Trails s more (declared s) (declared (s.next more)) := by
  have beside : Beside s (s.project.indexed.flatMap (alignmentSteps s))
      ((s.next more).project.indexed.flatMap (alignmentSteps (s.next more))) := by
    rw [show (s.next more).project.indexed = _ from Project.indexed_applyAll _ _]
    induction s.project.indexed with
    | nil => exact .nil
    | cons entry rest ih =>
      exact (beside_alignmentSteps regular.unforced managing entry.1 entry.2).append ih
  have start : Trails s more {} {} := ⟨sound_empty _, rfl, by simp [Locks.get?]⟩
  have ends := declared_eq_perform regular.unforced
  have trails := beside.trails regular managing (fun step member => by simp [steps, member])
    (sound_empty s) ends start
  have unforced : (s.next more).policy.Unforced := regular.unforced
  rwa [← ends, ← declared_eq_perform unforced] at trails

end Run

namespace Candidates

variable {s : Setting} {more : List Change}

theorem undeclared_of_admits {node : GraphNode} (admitted : admits s node = true) :
    node.artifact.coordinate ∉ s.project.declaredCoordinates := by
  simp only [admits, Bool.not_eq_true', Bool.or_eq_false_iff] at admitted
  simpa using admitted.1.1.2

theorem admits_next (unforced : s.policy.Unforced) (managing : s.Manages more) {node : GraphNode}
    (undeclared : node.artifact.coordinate ∉ (s.next more).project.declaredCoordinates) :
    admits (s.next more) node = admits s node := by
  have final : Run.Sound s (Run.declared s) := Run.sound_declared unforced
  have before : node.artifact.coordinate ∉ s.project.declaredCoordinates := fun declared =>
    undeclared ((Project.mem_declaredCoordinates_next final.manages_nothing managing.all).2
      (.inl declared))
  have owns : (s.next more).project.owns node.artifact.coordinate =
      s.project.owns node.artifact.coordinate := Project.owns_applyAll _ _ _
  have policy : (s.next more).policy = s.policy := rfl
  simp [admits, owns, policy, before, undeclared]

end Candidates

theorem TransitiveOutcome.injections_next {s : Setting} {more : List Change}
    (unforced : s.policy.Unforced) (managing : s.Manages more)
    (rooted : (s.project.module? s.project.root).isSome) {graphs : Artifact → Forest}
    (managed : ∀ change ∈ (ofCandidates s (.recorded s graphs)).injections, change ∈ more) :
    (ofCandidates (s.next more) (.recorded (s.next more) graphs)).injections = [] := by
  have final : Run.Sound s (Run.declared s) := Run.sound_declared unforced
  have gathered : Candidates.recorded (s.next more) graphs =
      (Candidates.visited s graphs (s.project.modules.map Module.identity)).foldl
        (Candidates.addNode (s.next more)) [] := by
    rw [← s.project.identities_applyAll ((Run.declared s).changes.changes ++ more)]
    rfl
  rw [(ofCandidates_eq ..).1, List.flatMap_eq_nil_iff]
  rintro ⟨c, occurrence⟩ member
  rw [gathered] at member
  -- The candidate is undeclared in the changed project, so it was gathered before as it is now.
  obtain ⟨node, -, admitted, rfl⟩ := Candidates.admits_of_mem member
  have undeclared := Candidates.undeclared_of_admits admitted
  have first : (node.artifact.coordinate, occurrence) ∈ Candidates.recorded s graphs :=
    Candidates.mem_of_mem_foldl (s := s) (s.next more) rfl
      (fun other _ same => Candidates.admits_next unforced managing (same ▸ undeclared)) member
  refine injected_eq_nil.2 fun target covered => Bool.eq_false_iff.2 fun move => ?_
  -- Had the channel moved it, it would be managed in the execution root, and so be declared.
  have asks : .manage s.project.root node.artifact.coordinate target occurrence.exclusions
      occurrence.version ∈ more := by
    refine managed _ ?_
    rw [(ofCandidates_eq ..).1, List.mem_flatMap]
    exact ⟨_, first, mem_injected.2 ⟨target, covered, move, rfl⟩⟩
  obtain ⟨m, inside⟩ := Option.isSome_iff_exists.1 rooted
  exact undeclared ((Project.mem_declaredCoordinates_next final.manages_nothing managing.all).2
    (.inr ⟨s.project.root, m, _, inside,
      List.mem_filterMap.2 ⟨_, asks, Change.managed?_manage.2 ⟨rfl, rfl⟩⟩, rfl⟩))

theorem TransitiveOutcome.exists_of_mem_injections {s : Setting} {candidates : Candidates}
    {change : Change} (member : change ∈ (ofCandidates s candidates).injections) :
    ∃ owner c target exclusions former current,
      change = .manage owner c target exclusions former ∧
        s.given.channel c current = some target := by
  rw [(ofCandidates_eq ..).1, List.mem_flatMap] at member
  obtain ⟨⟨c, occurrence⟩, -, asks⟩ := member
  obtain ⟨target, covered, -, rfl⟩ := mem_injected.1 asks
  exact ⟨_, c, target, _, _, _, rfl, covered⟩

section

variable {p : Project} {given : Surroundings} {o : Options} (graphs : Artifact → Forest)

theorem exists_report (unforced : (Policy.ofOptions o).Unforced)
    (served : ∀ m, given.graph m = .ok (graphs m.identity)) :
    ∃ report more, (align p given o).1 = .ok report ∧
      report.changes.changes = (Run.declared (.ofOptions p given o)).changes.changes ++ more ∧
      ∀ change, change ∈ more ↔ o.injectTransitiveDependencies = true ∧
        change ∈ (TransitiveOutcome.ofCandidates (.ofOptions p given o)
          (.recorded (.ofOptions p given o) graphs)).injections := by
  cases inject : o.injectTransitiveDependencies with
  | false =>
    refine ⟨(Run.declared (.ofOptions p given o)).toReport, [], ?_, ?_, by simp⟩
    · exact align_eq_ok.2 (.inl ⟨inject, rfl⟩)
    · simp [Run.toReport]
  | true =>
    have final : Run.Sound (.ofOptions p given o) (Run.declared (.ofOptions p given o)) :=
      Run.sound_declared unforced
    have gathered : Candidates.gather (.ofOptions p given o) [] p.modules =
        .ok (.recorded (.ofOptions p given o) graphs) := Candidates.gather_eq served
    obtain ⟨more, grown, inside⟩ := ChangeSet.exists_extend
      (Run.declared (.ofOptions p given o)).changes (TransitiveOutcome.ofCandidates
        (.ofOptions p given o) (.recorded (.ofOptions p given o) graphs)).injections
    refine ⟨_, more, align_eq_ok.2 (.inr ⟨inject, _, gathered, rfl⟩), grown, fun change => ?_⟩
    refine ⟨fun member => ⟨rfl, inside change member⟩, ?_⟩
    rintro ⟨-, member⟩
    have present : change ∈ (Run.declared (.ofOptions p given o)).changes.changes ++ more :=
      grown ▸ ChangeSet.mem_extend.2 (.inr member)
    obtain ⟨_, _, _, _, _, _, rfl, -⟩ := TransitiveOutcome.exists_of_mem_injections member
    exact (List.mem_append.1 present).resolve_left fun old => final.manages_nothing _ _ _ _ _ old

theorem align_again (regular : (Setting.ofOptions p given o).Regular)
    (rooted : (p.module? p.root).isSome) (served : ∀ m, given.graph m = .ok (graphs m.identity)) :
    ∃ report again, (align p given o).1 = .ok report ∧
      (align (p.applyAll report.changes.changes) given o).1 = .ok again ∧
      again.changes.changes = [] := by
  obtain ⟨report, more, ends, changes, asked⟩ := exists_report graphs regular.unforced served
  have managing : (Setting.ofOptions p given o).Manages more := fun change member =>
    TransitiveOutcome.exists_of_mem_injections ((asked change).1 member).2
  obtain ⟨again, least, ends', changes', asked'⟩ :=
    exists_report (p := p.applyAll report.changes.changes) graphs regular.unforced served
  have next : Setting.ofOptions (p.applyAll report.changes.changes) given o =
      (Setting.ofOptions p given o).next more := by
    rw [changes]
    rfl
  rw [next] at changes' asked'
  have idle := (Run.trails_declared regular managing).idle
  -- What the candidates of the second run ask for is managed already.
  have nothing : least = [] := by
    refine List.eq_nil_iff_forall_not_mem.2 fun change member => ?_
    obtain ⟨inject, asks⟩ := (asked' change).1 member
    rw [TransitiveOutcome.injections_next regular.unforced managing rooted
      fun change member => (asked change).2 ⟨inject, member⟩] at asks
    simp at asks
  exact ⟨report, again, ends, ends', by rw [changes', idle, nothing, List.append_nil]⟩

end

theorem Project.rooted_of_ofModules {modules : List Module} {p : Project}
    (built : Project.ofModules modules = .ok p) : (p.module? p.root).isSome :=
  (Project.ofModules_eq_ok built).2.1

/-- Alignment converges in one round, on every project that can be built. -/
theorem Descriptor.align_again_changes_nothing (d : Descriptor) (man : Manifest) (o : Options)
    (built : Project.ofModules d.project.modules = .ok d.project)
    (literal : man.IsLiteral) (unforced : (Policy.ofOptions o).Unforced) :
    let given := d.surroundings (fun c _ => (ChannelIndex.ofManifest man).version? c)
      Version.compare
    ∃ report again, (align d.project given o).1 = .ok report ∧
      (align (d.project.applyAll report.changes.changes) given o).1 = .ok again ∧
      again.changes.changes = [] := by
  intro given
  have regular : (Setting.ofOptions d.project given o).Regular :=
    Manifest.regular_setting literal unforced d.project given
  exact align_again (fun identity => (d.identified.reverse.lookup identity).getD []) regular
    (Project.rooted_of_ofModules built) fun _ => rfl

def deeperReaders : Descriptor where
  project := twoReaders
  graphs := [(1, [{ artifact := ⟨⟨"io.netty", "netty-common", "jar", none⟩, "1.0"⟩ }])]

theorem Descriptor.deeperReaders_align_again :
    Project.ofModules deeperReaders.project.modules = .ok deeperReaders.project ∧
    let given := deeperReaders.surroundings
      (fun c _ => (ChannelIndex.ofManifest twoVersions).version? c) Version.compare
    ∃ report again, (align deeperReaders.project given {}).1 = .ok report ∧
      (align (deeperReaders.project.applyAll report.changes.changes) given {}).1 = .ok again ∧
      again.changes.changes = [] :=
  ⟨rfl, deeperReaders.align_again_changes_nothing twoVersions {} rfl
    (by unfold Manifest.IsLiteral; decide) ⟨rfl, rfl⟩⟩

end VersionAlignment
