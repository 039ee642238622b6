import Mathlib.Data.List.Basic
import Mathlib.Data.List.Forall2
import VersionAlignment.Alignment.Report
import VersionAlignment.Proofs.NextProject
import VersionAlignment.Proofs.Redeclared
import VersionAlignment.Proofs.RunInduction

set_option autoImplicit false

namespace VersionAlignment

theorem Module.text_of_identity {m n : Module} (same : m.identity = n.identity) :
    m.text = n.text := by
  simp only [identity, Artifact.mk.injEq, Coordinate.mk.injEq] at same
  simp [text, same]

theorem Policy.ignoresModule_of_identity (policy : Policy) {m n : Module}
    (same : m.identity = n.identity) : policy.ignoresModule m = policy.ignoresModule n := by
  simp only [Module.identity, Artifact.mk.injEq, Coordinate.mk.injEq] at same
  simp [ignoresModule, same]

theorem Project.identities_redeclare (p : Project) (f : Nat → List Declaration → List Declaration) :
    List.Forall₂ (fun m n => n.identity = m.identity) p.modules (p.redeclare f).modules := by
  refine List.forall₂_iff_get.2 ⟨by simp [redeclare], fun index _ _ => ?_⟩
  simp [redeclare, Module.identity]

section

variable (s : Setting) (f : Nat → List Declaration → List Declaration)

theorem Override.declaration_redeclare (index : Nat) :
    declaration (s.redeclare f) index = declaration s index := by
  funext run d
  have owns : (s.redeclare f).project.owns d.coordinate = s.project.owns d.coordinate :=
    s.project.owns_redeclare f d.coordinate
  have found (c : Coordinate) (raw : String) (run : Run) :
      resolution? (s.redeclare f) index c raw run = resolution? s index c raw run := by
    simp only [resolution?, s.resolve_redeclare f]
    rfl
  simp only [declaration, version, owns, found]
  rfl

theorem Run.alignDeclaration_redeclare (index : Nat) :
    alignDeclaration (s.redeclare f) index = alignDeclaration s index := by
  funext run d
  unfold alignDeclaration
  cases d.version with
  | none => rfl
  | some raw =>
    dsimp only
    rw [judge_redeclare s f rfl rfl]
    rfl

end

variable {s : Setting} {f : Nat → List Declaration → List Declaration}

theorem Override.all_redeclare_of_foldl
    (forced : ∀ index m, s.Heeds index m → ∀ run,
      (f index m.declarations).foldl (declaration s index) run =
        m.declarations.foldl (declaration s index) run) : all (s.redeclare f) {} = all s {} := by
  rw [all, all, s.project_redeclare, s.project.indexed_redeclare, List.foldl_map]
  refine List.foldl_ext _ _ _ fun run entry member => ?_
  obtain ⟨m, index⟩ := entry
  by_cases ignored : s.policy.ignoresModule m = true
  · simp [moduleEntries, ignored]
  · have heeds : s.Heeds index m := ⟨Run.mem_indexed.1 member, by simpa using ignored⟩
    simp only [moduleEntries, s.policy_redeclare, Policy.ignoresModule_redeclared, ignored,
      Bool.false_eq_true, if_false, declaration_redeclare, forced index m heeds]
    rfl

theorem Run.declared_redeclare
    (forced : ∀ index m, s.Heeds index m → ∀ run,
      (f index m.declarations).foldl (Override.declaration s index) run =
        m.declarations.foldl (Override.declaration s index) run)
    (decided : ∀ index m, s.Heeds index m → ∀ run,
      (firstDeclarations [] (f index m.declarations)).foldl (alignDeclaration s index) run =
        (firstDeclarations [] m.declarations).foldl (alignDeclaration s index) run) :
    declared (s.redeclare f) = declared s := by
  rw [declared, declared, Override.all_redeclare_of_foldl forced, s.project_redeclare,
    s.project.indexed_redeclare, List.foldl_map]
  refine List.foldl_ext _ _ _ fun run entry member => ?_
  obtain ⟨m, index⟩ := entry
  by_cases ignored : s.policy.ignoresModule m = true
  · simp only [alignModule, s.policy_redeclare, Policy.ignoresModule_redeclared, ignored, if_true]
    rfl
  · have heeds : s.Heeds index m := ⟨mem_indexed.1 member, by simpa using ignored⟩
    simp only [alignModule, s.policy_redeclare, Policy.ignoresModule_redeclared, ignored,
      Bool.false_eq_true, if_false, alignDeclaration_redeclare, decided index m heeds]
    rfl

namespace Candidates

theorem admits_redeclare
    (declares : ∀ c, s.project.owns c = false →
      (c ∈ (s.project.redeclare f).declaredCoordinates ↔ c ∈ s.project.declaredCoordinates)) :
    admits (s.redeclare f) = admits s := by
  funext node
  have owns : (s.redeclare f).project.owns node.artifact.coordinate =
      s.project.owns node.artifact.coordinate := s.project.owns_redeclare f _
  simp only [admits, owns]
  cases foreign : s.project.owns node.artifact.coordinate with
  | true => simp
  | false =>
    have same : (s.redeclare f).project.declaredCoordinates.contains node.artifact.coordinate =
        s.project.declaredCoordinates.contains node.artifact.coordinate := by
      rw [Bool.eq_iff_iff, List.contains_iff_mem, List.contains_iff_mem]
      exact declares _ foreign
    rw [same]
    rfl

theorem gather_congr {s' : Setting} (policy : s'.policy = s.policy)
    (order : s'.given.order = s.given.order) (same : admits s' = admits s)
    {modules others : List Module}
    (alike : List.Forall₂ (fun m n => n.identity = m.identity ∧
      (s.policy.ignoresModule m = false → s'.given.graph n = s.given.graph m)) modules others)
    (candidates : Candidates) : gather s' candidates others = gather s candidates modules := by
  have added : addNode s' = addNode s := by
    funext candidates node
    simp only [addNode, same]
    unfold merge
    rw [order]
  induction alike generalizing candidates with
  | nil => rfl
  | @cons m n _ _ own _ ih =>
    obtain ⟨identity, graph⟩ := own
    unfold gather
    rw [policy, s.policy.ignoresModule_of_identity identity, Module.text_of_identity identity]
    cases heeded : s.policy.ignoresModule m with
    | true => exact ih candidates
    | false =>
      rw [graph heeded]
      cases s.given.graph m with
      | error => rfl
      | ok forest =>
        simp only [visit, added]
        exact ih _

end Candidates

theorem align_redeclare {p : Project} {given : Surroundings} {o : Options}
    (run : Run.declared ((Setting.ofOptions p given o).redeclare f) =
      Run.declared (.ofOptions p given o))
    (graphs : ∀ m n : Module, m.identity = n.identity → given.graph m = given.graph n)
    (declares : ∀ c, p.owns c = false →
      (c ∈ (p.redeclare f).declaredCoordinates ↔ c ∈ p.declaredCoordinates)) :
    align (p.redeclare f) given o = align p given o := by
  have gathered : Candidates.gather ((Setting.ofOptions p given o).redeclare f) []
      (p.redeclare f).modules = Candidates.gather (.ofOptions p given o) [] p.modules := by
    refine Candidates.gather_congr ?_ ?_ (Candidates.admits_redeclare declares) ?_ []
    · rfl
    · rfl
    · exact (p.identities_redeclare f).imp fun m n same => ⟨same, fun _ => graphs n m same⟩
  simp only [Setting.redeclare, Setting.ofOptions] at run gathered
  simp only [align, run, gathered]
  rfl

end VersionAlignment
