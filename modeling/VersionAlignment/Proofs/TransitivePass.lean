import VersionAlignment.Proofs.Discovery
import VersionAlignment.Proofs.ManifestChannel
import VersionAlignment.Proofs.RedeclaredRuns
import VersionAlignment.Proofs.ReportedDeclarations
import VersionAlignment.Proofs.VersionOrder

set_option autoImplicit false

namespace VersionAlignment

theorem ChangeSet.extend_of_new {set : ChangeSet} {added : List Change} (once : added.Nodup)
    (new : ∀ change ∈ added, change ∉ set.changes) :
    (set.extend added).changes = set.changes ++ added := by
  induction added generalizing set with
  | nil => simp [extend]
  | cons first rest ih =>
    obtain ⟨unique, once⟩ := List.nodup_cons.1 once
    obtain ⟨fresh, new⟩ := List.forall_mem_cons.1 new
    have pushed : (set.insert first).changes = set.changes ++ [first] := by
      simp [insert, push, fresh]
    have later : ((set.insert first).extend rest).changes = (set.insert first).changes ++ rest := by
      refine ih once fun change member => ?_
      rw [pushed, List.mem_append, List.mem_singleton, not_or]
      exact ⟨new change member, fun same => unique (same ▸ member)⟩
    calc (set.extend (first :: rest)).changes
        = ((set.insert first).extend rest).changes := rfl
      _ = set.changes ++ first :: rest := by rw [later, pushed, List.append_assoc]; rfl

namespace Candidates

variable {s : Setting}

theorem ascending_of_gather {modules : List Module} {candidates : Candidates}
    (gathered : gather s [] modules = .ok candidates) :
    Sorted.Ascending (candidates.map Prod.fst) := by
  suffices grows : ∀ before : Candidates, Sorted.Ascending (before.map Prod.fst) →
      gather s before modules = .ok candidates → Sorted.Ascending (candidates.map Prod.fst) from
    grows [] List.Pairwise.nil gathered
  clear gathered
  induction modules with
  | nil =>
    rintro before ascending ⟨⟩
    exact ascending
  | cons m rest ih =>
    intro before ascending gathered
    unfold gather at gathered
    split at gathered
    · exact ih before ascending gathered
    · split at gathered
      · cases gathered
      · exact ih _ (ascending_foldl _ ascending) gathered

theorem undeclared_of_gather {modules : List Module} {candidates : Candidates} {c : Coordinate}
    (gathered : gather s [] modules = .ok candidates) (member : c ∈ candidates.map Prod.fst) :
    Undeclared s c := by
  rcases admits_of_gather gathered member with none | ⟨node, admitted, rfl⟩
  · simp at none
  · exact (admits_iff.1 admitted).1

end Candidates

namespace TransitiveOutcome

variable {s : Setting} {candidates : Candidates}

theorem ascending_flatMap {α : Type} {f : Coordinate × Occurrence → List α}
    {key : α → Option Coordinate} (ascending : Sorted.Ascending (candidates.map Prod.fst))
    (own : ∀ candidate, (f candidate).filterMap key = [] ∨
      (f candidate).filterMap key = [candidate.1]) :
    Sorted.Ascending ((candidates.flatMap f).filterMap key) := by
  refine List.Pairwise.sublist ?_ ascending
  clear ascending
  induction candidates with
  | nil => exact List.Sublist.slnil
  | cons candidate rest ih =>
    rw [List.flatMap_cons, List.filterMap_append, List.map_cons]
    rcases own candidate with none | one
    · rw [none]
      exact ih.cons _
    · rw [one]
      exact ih.cons_cons _

theorem ascending_injected (ascending : Sorted.Ascending (candidates.map Prod.fst)) :
    Sorted.Ascending ((candidates.flatMap (injected s)).filterMap Change.coordinate?) := by
  refine ascending_flatMap ascending ?_
  rintro ⟨c, occurrence⟩
  cases covered : s.given.channel c occurrence.version with
  | none => simp [injected, covered]
  | some target =>
    cases move : s.isMove occurrence.version target <;>
      simp [injected, covered, move, Change.coordinate?]

theorem ascending_behind (ascending : Sorted.Ascending (candidates.map Prod.fst)) :
    Sorted.Ascending ((candidates.flatMap (behind s)).map (·.coordinate)) := by
  rw [← List.filterMap_eq_map]
  refine ascending_flatMap ascending ?_
  rintro ⟨c, occurrence⟩
  cases covered : s.given.channel c occurrence.version with
  | none => simp [behind, covered]
  | some target =>
    cases move : s.isMove occurrence.version target <;>
      cases same : s.isSame occurrence.version target <;> simp [behind, covered, move, same]

theorem nodup_injected (ascending : Sorted.Ascending (candidates.map Prod.fst)) :
    (candidates.flatMap (injected s)).Nodup := by
  refine (List.pairwise_filterMap.1 (ascending_injected (s := s) ascending)).imp_of_mem ?_
  rintro change _ member - apart rfl
  obtain ⟨⟨c, occurrence⟩, -, asks⟩ := List.mem_flatMap.1 member
  obtain ⟨target, -, -, rfl⟩ := mem_injected.1 asks
  have less := apart c rfl c rfl
  simp at less

end TransitiveOutcome

inductive Fate
  | managed
  | uncovered
  | behind
  deriving DecidableEq, Repr

def Report.Adds (off on : Report) (c : Coordinate) : Fate → Prop
  | .managed => ∃ change ∈ on.changes.changes.drop off.changes.size, change.coordinate? = some c
  | .uncovered => c ∈ on.notCovered ∧ c ∉ off.notCovered
  | .behind => ∃ u ∈ on.unaligned.drop off.unaligned.length, u.coordinate = c

namespace TransitiveOutcome

def fate? (s : Setting) (c : Coordinate) (version : String) : Option Fate :=
  match s.given.channel c version with
  | none => some .uncovered
  | some target =>
    if s.isMove version target then some .managed
    else if s.isSame version target then none
    else some .behind

variable {s : Setting} {candidates : Candidates} {c : Coordinate} {version : String}

theorem fate?_eq_managed : fate? s c version = some .managed ↔ ∃ target,
    s.given.channel c version = some target ∧ s.isMove version target = true := by
  cases covered : s.given.channel c version with
  | none => simp [fate?, covered]
  | some target =>
    cases move : s.isMove version target <;> cases same : s.isSame version target <;>
      simp [fate?, covered, move, same]

theorem fate?_eq_behind : fate? s c version = some .behind ↔ ∃ target,
    s.given.channel c version = some target ∧ s.isMove version target = false ∧
      s.isSame version target = false := by
  cases covered : s.given.channel c version with
  | none => simp [fate?, covered]
  | some target =>
    cases move : s.isMove version target <;> cases same : s.isSame version target <;>
      simp [fate?, covered, move, same]

theorem fate?_eq_uncovered :
    fate? s c version = some .uncovered ↔ s.given.channel c version = none := by
  cases covered : s.given.channel c version with
  | none => simp [fate?, covered]
  | some target =>
    cases move : s.isMove version target <;> cases same : s.isSame version target <;>
      simp [fate?, covered, move, same]

theorem fate?_eq_none [Std.OrientedCmp s.given.order] : fate? s c version = none ↔ ∃ target,
    s.given.channel c version = some target ∧ s.given.order version target = .eq := by
  cases covered : s.given.channel c version with
  | none => simp [fate?, covered]
  | some target =>
    have mirrored : s.given.order target version = (s.given.order version target).swap :=
      Std.OrientedCmp.eq_swap
    cases order : s.given.order version target <;> cases keeps : s.options.doNotDowngrade <;>
      simp_all [fate?, Setting.isMove, Version.isMove, Setting.isSame]

theorem exists_injected :
    (∃ change ∈ candidates.flatMap (injected s), change.coordinate? = some c) ↔
    ∃ o, (c, o) ∈ candidates ∧ fate? s c o.version = some .managed := by
  simp only [List.mem_flatMap, fate?_eq_managed]
  constructor
  · rintro ⟨_, ⟨⟨d, o⟩, member, asks⟩, own⟩
    obtain ⟨target, covered, move, rfl⟩ := mem_injected.1 asks
    cases own
    exact ⟨o, member, target, covered, move⟩
  · rintro ⟨o, member, target, covered, move⟩
    exact ⟨_, ⟨(c, o), member, mem_injected.2 ⟨target, covered, move, rfl⟩⟩, rfl⟩

theorem exists_behind : (∃ u ∈ candidates.flatMap (behind s), u.coordinate = c) ↔
    ∃ o, (c, o) ∈ candidates ∧ fate? s c o.version = some .behind := by
  simp only [List.mem_flatMap, fate?_eq_behind]
  constructor
  · rintro ⟨_, ⟨⟨d, o⟩, member, stays⟩, rfl⟩
    obtain ⟨target, covered, move, same, rfl⟩ := mem_behind.1 stays
    exact ⟨o, member, target, covered, move, same⟩
  · rintro ⟨o, member, target, covered, move, same⟩
    exact ⟨_, ⟨(c, o), member, mem_behind.2 ⟨target, covered, move, same, rfl⟩⟩, rfl⟩

end TransitiveOutcome

section

variable {p : Project} {given : Surroundings} {o : Options} {candidates : Candidates}

theorem extended_of_align {on : Report}
    (ends : (align p given { o with injectTransitiveDependencies := true }).1 = .ok on) :
    let s := Setting.ofOptions p given o
    ∃ candidates, Candidates.gather s [] p.modules = .ok candidates ∧
      on = (Run.declared s).toReport.extend (.ofCandidates s candidates) := by
  rcases align_eq_ok.1 ends with ⟨never, -⟩ | ⟨-, candidates, gathered, rfl⟩
  · cases never
  · refine ⟨candidates, Eq.trans ?_ gathered, rfl⟩
    refine Candidates.gather_congr ?_ ?_ ?_ ?_ []
    · rfl
    · rfl
    · rfl
    · exact List.forall₂_same.2 fun _ _ => ⟨rfl, fun _ => rfl⟩

theorem changes_extended
    (gathered : Candidates.gather (.ofOptions p given o) [] p.modules = .ok candidates) :
    let s := Setting.ofOptions p given o
    let off := (Run.declared s).toReport
    (off.extend (.ofCandidates s candidates)).changes.changes =
      off.changes.changes ++ candidates.flatMap (TransitiveOutcome.injected s) := by
  intro s off
  refine (ChangeSet.extend_of_new ?_ ?_).trans (by rw [(TransitiveOutcome.ofCandidates_eq ..).1])
  · rw [(TransitiveOutcome.ofCandidates_eq ..).1]
    exact TransitiveOutcome.nodup_injected (Candidates.ascending_of_gather gathered)
  · intro change member
    rw [(TransitiveOutcome.ofCandidates_eq ..).1, List.mem_flatMap] at member
    obtain ⟨⟨c, occurrence⟩, -, asks⟩ := member
    obtain ⟨target, -, -, rfl⟩ := TransitiveOutcome.mem_injected.1 asks
    exact Run.declared_manages_nothing s _ _ _ _ _

theorem unaligned_extended (s : Setting) (off : Report) (candidates : Candidates) :
    (off.extend (.ofCandidates s candidates)).unaligned =
      off.unaligned ++ candidates.flatMap (TransitiveOutcome.behind s) := by
  rw [← (TransitiveOutcome.ofCandidates_eq ..).2]
  rfl

theorem adds_extended
    (gathered : Candidates.gather (.ofOptions p given o) [] p.modules = .ok candidates)
    (c : Coordinate) (fate : Fate) :
    let s := Setting.ofOptions p given o
    let off := (Run.declared s).toReport
    off.Adds (off.extend (.ofCandidates s candidates)) c fate ↔
      ∃ occurrence, (c, occurrence) ∈ candidates ∧
        TransitiveOutcome.fate? s c occurrence.version = some fate := by
  intro s off
  cases fate with
  | managed =>
    rw [Report.Adds, changes_extended gathered, ChangeSet.size, List.drop_left]
    exact TransitiveOutcome.exists_injected
  | uncovered =>
    simp only [TransitiveOutcome.fate?_eq_uncovered, ← TransitiveOutcome.mem_notCovered]
    constructor
    · rintro ⟨inside, fresh⟩
      exact (Sorted.mem_union.1 inside).resolve_left fresh
    · intro left
      refine ⟨Sorted.mem_union.2 (.inr left), fun before => ?_⟩
      -- What the declared dependencies leave uncovered is declared, but a candidate is not.
      obtain ⟨occurrence, member, -⟩ := TransitiveOutcome.mem_notCovered.1 left
      have undeclared := Candidates.undeclared_of_gather gathered (List.mem_map_of_mem member)
      obtain ⟨index, ⟨m, d, heeds, declares, same⟩, -⟩ :=
        (Run.concerns_declared s).uncovered c before
      exact undeclared.undeclared (Project.mem_declaredCoordinates.2
        ⟨index, m, heeds.present, .inr ⟨d, declares, same⟩⟩)
  | behind =>
    rw [Report.Adds, unaligned_extended, List.drop_left]
    exact TransitiveOutcome.exists_behind

theorem adds_of_mem
    (gathered : Candidates.gather (.ofOptions p given o) [] p.modules = .ok candidates)
    {c : Coordinate} {occurrence : Occurrence} (member : (c, occurrence) ∈ candidates)
    (fate : Fate) :
    let s := Setting.ofOptions p given o
    let off := (Run.declared s).toReport
    off.Adds (off.extend (.ofCandidates s candidates)) c fate ↔
      TransitiveOutcome.fate? s c occurrence.version = some fate := by
  refine (adds_extended gathered c fate).trans ⟨?_, fun goes => ⟨occurrence, member, goes⟩⟩
  rintro ⟨other, also, goes⟩
  have distinct := (Candidates.ascending_of_gather gathered).nodup
  have found : candidates.lookup c = some other := Sorted.lookup_of_mem distinct also
  obtain rfl : occurrence = other :=
    Option.some.inj ((Sorted.lookup_of_mem distinct member).symm.trans found)
  exact goes

end

/-- A report says what another one does and then more at its ends: what is to be managed in a
module, and what stays behind, each in the order of the coordinates. -/
structure Report.Continues (on off : Report) (root : Nat) : Prop where
  changes : ∃ managed, on.changes.changes = off.changes.changes ++ managed ∧
    (∀ change ∈ managed, change.Manages ∧ change.owner = root) ∧
    Sorted.Ascending (managed.filterMap Change.coordinate?)
  unaligned : ∃ behind, on.unaligned = off.unaligned ++ behind ∧
    Sorted.Ascending (behind.map (·.coordinate))
  notCovered : ∀ c ∈ off.notCovered, c ∈ on.notCovered
  warnings : on.warnings = off.warnings

theorem Report.continues_extended {p : Project} {given : Surroundings} {o : Options}
    {candidates : Candidates}
    (gathered : Candidates.gather (.ofOptions p given o) [] p.modules = .ok candidates) :
    let s := Setting.ofOptions p given o
    let off := (Run.declared s).toReport
    (off.extend (.ofCandidates s candidates)).Continues off p.root := by
  intro s off
  have ascending := Candidates.ascending_of_gather gathered
  refine ⟨⟨_, changes_extended gathered, ?_, TransitiveOutcome.ascending_injected ascending⟩,
    ⟨_, unaligned_extended _ _ _, TransitiveOutcome.ascending_behind ascending⟩,
    fun c before => Sorted.mem_union.2 (.inl before), rfl⟩
  intro change member
  obtain ⟨⟨c, occurrence⟩, -, asks⟩ := List.mem_flatMap.1 member
  obtain ⟨target, -, -, rfl⟩ := TransitiveOutcome.mem_injected.1 asks
  exact ⟨trivial, rfl⟩

/-- With transitive dependencies a report says what it says without them and then more, about each
candidate once unless it has the channel's version. -/
theorem align_continues (p : Project) (given : Surroundings) (o : Options) {on : Report}
    (ends : (align p given { o with injectTransitiveDependencies := true }).1 = .ok on) :
    let s := Setting.ofOptions p given o
    ∃ off candidates,
      (align p given { o with injectTransitiveDependencies := false }).1 = .ok off ∧
      Candidates.gather s [] p.modules = .ok candidates ∧
      on.Continues off p.root ∧
      (∀ c fate, off.Adds on c fate → c ∈ candidates.map Prod.fst ∧ Candidates.Undeclared s c) ∧
      ∀ c occurrence, (c, occurrence) ∈ candidates →
        (∀ fate other, off.Adds on c fate → off.Adds on c other → fate = other) ∧
        ((∀ a b, given.order a b = (given.order b a).swap) →
          ((∀ fate, ¬ off.Adds on c fate) ↔ ∃ target,
            given.channel c occurrence.version = some target ∧
            given.order occurrence.version target = .eq)) := by
  intro s
  obtain ⟨candidates, gathered, rfl⟩ := extended_of_align ends
  refine ⟨(Run.declared s).toReport, candidates, align_eq_ok.2 (.inl ⟨rfl, rfl⟩), gathered,
    Report.continues_extended gathered, ?_, ?_⟩
  · intro c fate adds
    obtain ⟨occurrence, member, -⟩ := (adds_extended gathered c fate).1 adds
    have key : c ∈ candidates.map Prod.fst := List.mem_map.2 ⟨_, member, rfl⟩
    exact ⟨key, Candidates.undeclared_of_gather gathered key⟩
  · intro c occurrence member
    have only := adds_of_mem gathered member
    constructor
    · intro fate other adds also
      exact Option.some.inj (((only fate).1 adds).symm.trans ((only other).1 also))
    · intro mirrored
      have : Std.OrientedCmp s.given.order := ⟨fun {a b} => mirrored a b⟩
      refine Iff.trans ?_ (TransitiveOutcome.fate?_eq_none (s := s))
      rw [Option.eq_none_iff_forall_ne_some]
      exact forall_congr' fun fate => not_congr (only fate)

def oneReader : Project where
  modules := [{
    group := "org.acme", artifact := "core", version := "1", isRoot := true
    declarations := [
      { coordinate := ⟨"io.netty", "netty-codec", "jar", none⟩, version := some "1.0" }] }]
  root := 0

def fourNodes : Surroundings :=
  let node (group artifact version : String) : GraphNode :=
    { artifact := ⟨⟨group, artifact, "jar", none⟩, version⟩ }
  { Manifest.serve { streams := [⟨"io.netty", "*", "2.0"⟩] } .alone with
    graph := fun _ => .ok [node "io.netty" "netty-common" "1.0", node "io.netty" "netty-nio" "3.0",
      node "io.netty" "netty-buffer" "2.0.Final", node "junit" "junit" "4.13"] }

theorem align_continues_fourNodes :
    let o : Options := { doNotDowngrade := true }
    let c (artifact : String) : Coordinate := ⟨"io.netty", artifact, "jar", none⟩
    ∃ on off,
      (align oneReader fourNodes { o with injectTransitiveDependencies := true }).1 = .ok on ∧
      (align oneReader fourNodes { o with injectTransitiveDependencies := false }).1 = .ok off ∧
      on.changes.changes = off.changes.changes ++ [.manage 0 (c "netty-common") "2.0" [] "1.0"] ∧
      off.Adds on (c "netty-common") .managed ∧ off.Adds on (c "netty-nio") .behind ∧
      off.Adds on ⟨"junit", "junit", "jar", none⟩ .uncovered ∧
      ∀ fate, ¬ off.Adds on (c "netty-buffer") fate := by
  intro o c
  have reported : ∃ on off,
      (align oneReader fourNodes { o with injectTransitiveDependencies := true }).1 = .ok on ∧
      (align oneReader fourNodes { o with injectTransitiveDependencies := false }).1 = .ok off ∧
      on.changes.changes = off.changes.changes ++ [.manage 0 (c "netty-common") "2.0" [] "1.0"] ∧
      on.unaligned.drop off.unaligned.length =
        [⟨0, c "netty-nio", "3.0", "2.0", .downgradeRefused⟩] ∧
      ⟨"junit", "junit", "jar", none⟩ ∈ on.notCovered ∧ off.notCovered = [] := by
    refine ⟨_, _, rfl, rfl, ?_⟩
    simp only [Candidates.visit, Forest.nodes, List.nil_append]
    decide +kernel
  obtain ⟨on, off, ends, alone, changed, stays, uncovered, none⟩ := reported
  have last : on.changes.changes.drop off.changes.size =
      [.manage 0 (c "netty-common") "2.0" [] "1.0"] := by
    rw [changed, ChangeSet.size, List.drop_left]
  have managed : off.Adds on (c "netty-common") .managed := by
    rw [Report.Adds, last]
    exact ⟨_, List.mem_cons_self, rfl⟩
  have behind : off.Adds on (c "netty-nio") .behind := by
    rw [Report.Adds, stays]
    exact ⟨_, List.mem_cons_self, rfl⟩
  refine ⟨on, off, ends, alone, changed, managed, behind, ⟨uncovered, by simp [none]⟩, ?_⟩
  obtain ⟨off', candidates, alone', gathered, -, -, settled⟩ :=
    align_continues oneReader fourNodes o ends
  obtain rfl : off = off' := Except.ok.inj (alone.symm.trans alone')
  have found : ∃ candidates,
      Candidates.gather (.ofOptions oneReader fourNodes o) [] oneReader.modules = .ok candidates ∧
      (c "netty-buffer", ⟨"2.0.Final", []⟩) ∈ candidates := by
    refine ⟨_, rfl, ?_⟩
    simp only [Candidates.visit, Forest.nodes, List.nil_append]
    decide +kernel
  obtain ⟨candidates', gathered', buffer⟩ := found
  obtain rfl : candidates = candidates' := Except.ok.inj (gathered.symm.trans gathered')
  obtain ⟨-, equal⟩ := settled _ _ buffer
  have covered : fourNodes.channel (c "netty-buffer") "2.0.Final" = some "2.0" := by decide +kernel
  have same : fourNodes.order "2.0.Final" "2.0" = .eq := by decide +kernel
  have mirrored : ∀ a b, fourNodes.order a b = (fourNodes.order b a).swap := by
    intro a b
    simp only [fourNodes, Manifest.serve]
    exact Version.compare_swap b a
  exact (equal mirrored).2 ⟨"2.0", covered, same⟩

end VersionAlignment
