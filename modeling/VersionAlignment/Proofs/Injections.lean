import VersionAlignment.Alignment.Report
import VersionAlignment.Proofs.Effects

set_option autoImplicit false

namespace VersionAlignment

theorem ChangeSet.mem_extend {set : ChangeSet} {added : List Change} {change : Change} :
    change ∈ (set.extend added).changes ↔ change ∈ set.changes ∨ change ∈ added := by
  induction added generalizing set with
  | nil => simp [extend]
  | cons first rest ih =>
    have later : change ∈ (set.extend (first :: rest)).changes ↔
        change ∈ (set.insert first).changes ∨ change ∈ rest := ih
    rw [later, mem_insert, List.mem_cons, or_assoc]

theorem ChangeSet.exists_extend (set : ChangeSet) (added : List Change) :
    ∃ more, (set.extend added).changes = set.changes ++ more ∧ ∀ change ∈ more, change ∈ added := by
  induction added generalizing set with
  | nil => exact ⟨[], by simp [extend], by simp⟩
  | cons first rest ih =>
    obtain ⟨more, grown, inside⟩ := ih (set.insert first)
    have later : (set.extend (first :: rest)).changes = (set.insert first).changes ++ more := grown
    by_cases present : first ∈ set.changes
    · refine ⟨more, ?_, fun change member => List.mem_cons_of_mem _ (inside change member)⟩
      rw [later]
      simp [insert, push, present]
    · refine ⟨first :: more, ?_, ?_⟩
      · rw [later]
        simp [insert, push, present]
      · intro change member
        rcases List.mem_cons.1 member with rfl | member
        · exact List.mem_cons_self
        · exact List.mem_cons_of_mem _ (inside change member)

namespace TransitiveOutcome

def injected (s : Setting) (candidate : Coordinate × Occurrence) : List Change :=
  let (c, ⟨version, exclusions⟩) := candidate
  match s.given.channel c version with
  | none => []
  | some target =>
    if s.isMove version target then [.manage s.project.root c target exclusions version] else []

def behind (s : Setting) (candidate : Coordinate × Occurrence) : List Unaligned :=
  let (c, ⟨version, _⟩) := candidate
  match s.given.channel c version with
  | none => []
  | some target =>
    if s.isMove version target || s.isSame version target then []
    else [⟨s.project.root, c, version, target, .downgradeRefused⟩]

variable (s : Setting)

theorem add_injections (outcome : TransitiveOutcome) (candidate : Coordinate × Occurrence) :
    (add s outcome candidate).injections = outcome.injections ++ injected s candidate := by
  obtain ⟨c, version, exclusions⟩ := candidate
  cases covered : s.given.channel c version with
  | none => simp [add, injected, covered]
  | some target =>
    by_cases move : s.isMove version target = true
    · simp [add, injected, covered, move]
    · by_cases same : s.isSame version target = true <;> simp [add, injected, covered, move, same]

theorem add_unaligned (outcome : TransitiveOutcome) (candidate : Coordinate × Occurrence) :
    (add s outcome candidate).unaligned = outcome.unaligned ++ behind s candidate := by
  obtain ⟨c, version, exclusions⟩ := candidate
  cases covered : s.given.channel c version with
  | none => simp [add, behind, covered]
  | some target =>
    by_cases move : s.isMove version target = true
    · simp [add, behind, covered, move]
    · by_cases same : s.isSame version target = true <;> simp [add, behind, covered, move, same]

theorem ofCandidates_eq (candidates : Candidates) :
    (ofCandidates s candidates).injections = candidates.flatMap (injected s) ∧
      (ofCandidates s candidates).unaligned = candidates.flatMap (behind s) := by
  suffices grows : ∀ outcome : TransitiveOutcome,
      (candidates.foldl (add s) outcome).injections =
        outcome.injections ++ candidates.flatMap (injected s) ∧
      (candidates.foldl (add s) outcome).unaligned =
        outcome.unaligned ++ candidates.flatMap (behind s) by
    simpa [ofCandidates] using grows {}
  induction candidates with
  | nil => simp
  | cons candidate rest ih =>
    intro outcome
    rw [List.foldl_cons, (ih _).1, (ih _).2, add_injections, add_unaligned]
    simp

variable {s}

theorem mem_injected {c : Coordinate} {occurrence : Occurrence} {change : Change} :
    change ∈ injected s (c, occurrence) ↔ ∃ target,
      s.given.channel c occurrence.version = some target ∧
      s.isMove occurrence.version target = true ∧
      change = .manage s.project.root c target occurrence.exclusions occurrence.version := by
  cases covered : s.given.channel c occurrence.version with
  | none => simp [injected, covered]
  | some target =>
    cases move : s.isMove occurrence.version target <;> simp [injected, covered, move]

theorem mem_behind {c : Coordinate} {occurrence : Occurrence} {u : Unaligned} :
    u ∈ behind s (c, occurrence) ↔ ∃ target,
      s.given.channel c occurrence.version = some target ∧
      s.isMove occurrence.version target = false ∧ s.isSame occurrence.version target = false ∧
      u = ⟨s.project.root, c, occurrence.version, target, .downgradeRefused⟩ := by
  cases covered : s.given.channel c occurrence.version with
  | none => simp [behind, covered]
  | some target =>
    cases move : s.isMove occurrence.version target <;>
      cases same : s.isSame occurrence.version target <;> simp [behind, covered, move, same]

theorem mem_notCovered {candidates : Candidates} {c : Coordinate} :
    c ∈ (ofCandidates s candidates).notCovered ↔
      ∃ occurrence, (c, occurrence) ∈ candidates ∧ s.given.channel c occurrence.version = none := by
  suffices grows : ∀ outcome : TransitiveOutcome,
      c ∈ (candidates.foldl (add s) outcome).notCovered ↔ c ∈ outcome.notCovered ∨
        ∃ occurrence, (c, occurrence) ∈ candidates ∧
          s.given.channel c occurrence.version = none by
    simpa [ofCandidates] using grows {}
  induction candidates with
  | nil => simp
  | cons candidate rest ih =>
    intro outcome
    obtain ⟨first, version, exclusions⟩ := candidate
    rw [List.foldl_cons, ih]
    have added : c ∈ (add s outcome (first, ⟨version, exclusions⟩)).notCovered ↔
        c ∈ outcome.notCovered ∨ c = first ∧ s.given.channel first version = none := by
      cases covered : s.given.channel first version with
      | none => simp [add, covered, Sorted.mem_insert, or_comm]
      | some target =>
        simp only [add, covered]
        split
        · simp
        · split <;> simp
    rw [added, or_assoc]
    simp only [List.mem_cons, Prod.mk.injEq]
    grind

theorem injected_eq_nil {c : Coordinate} {occurrence : Occurrence} :
    injected s (c, occurrence) = [] ↔ ∀ target,
      s.given.channel c occurrence.version = some target →
      s.isMove occurrence.version target = false := by
  cases covered : s.given.channel c occurrence.version <;> simp [injected, covered]

end TransitiveOutcome

theorem align_eq_ok {p : Project} {given : Surroundings} {o : Options} {report : Report} :
    (align p given o).1 = .ok report ↔
      (o.injectTransitiveDependencies = false ∧
        report = (Run.declared (.ofOptions p given o)).toReport) ∨
      (o.injectTransitiveDependencies = true ∧
        ∃ candidates, Candidates.gather (.ofOptions p given o) [] p.modules = .ok candidates ∧
          report = (Run.declared (.ofOptions p given o)).toReport.extend
            (TransitiveOutcome.ofCandidates (.ofOptions p given o) candidates)) := by
  unfold align Setting.ofOptions
  cases inject : o.injectTransitiveDependencies with
  | false => simp [eq_comm]
  | true =>
    cases gathered : Candidates.gather ⟨p, Policy.ofOptions o, o, given⟩ [] p.modules with
    | error error => simp [gathered]
    | ok candidates => simp [gathered, eq_comm]

theorem exists_managed {p : Project} {given : Surroundings} {o : Options} {report : Report}
    (ends : (align p given o).1 = .ok report) :
    ∃ managed, report.changes.changes =
        (Run.declared (.ofOptions p given o)).changes.changes ++ managed ∧
      ∀ change ∈ managed, ∃ candidate,
        change ∈ TransitiveOutcome.injected (.ofOptions p given o) candidate := by
  rcases align_eq_ok.1 ends with ⟨-, rfl⟩ | ⟨-, candidates, -, rfl⟩
  · exact ⟨[], by simp [Run.toReport], by simp⟩
  · obtain ⟨managed, grown, inside⟩ := ChangeSet.exists_extend
      (Run.declared (.ofOptions p given o)).changes
      (TransitiveOutcome.ofCandidates (.ofOptions p given o) candidates).injections
    refine ⟨managed, grown, fun change member => ?_⟩
    have injected := inside change member
    rw [(TransitiveOutcome.ofCandidates_eq ..).1, List.mem_flatMap] at injected
    obtain ⟨candidate, -, asks⟩ := injected
    exact ⟨candidate, asks⟩

end VersionAlignment
