import VersionAlignment.Proofs.ManifestChannel
import VersionAlignment.Proofs.RedeclaredRuns
import VersionAlignment.Proofs.ReportedDeclarations

set_option autoImplicit false

namespace VersionAlignment

/-- Two projects of the same modules, of which only ignored ones may declare something else. -/
structure Policy.Conflates (policy : Policy) (p q : Project) : Prop where
  root : q.root = p.root
  modules : List.Forall₂ (fun m n => n = { m with declarations := n.declarations } ∧
    (policy.ignoresModule m = false → n.declarations = m.declarations)) p.modules q.modules

def Project.declarationsAt (q : Project) (index : Nat) (others : List Declaration) :
    List Declaration :=
  ((q.module? index).map (·.declarations)).getD others

namespace Policy.Conflates

variable {policy : Policy} {p q : Project}

theorem redeclares (same : policy.Conflates p q) : p.redeclare q.declarationsAt = q := by
  obtain ⟨root, modules⟩ := same
  obtain ⟨length, alike⟩ := List.forall₂_iff_get.1 modules
  have modules : (p.redeclare q.declarationsAt).modules = q.modules := by
    refine List.ext_getElem (by simp [Project.redeclare, length]) fun index here there => ?_
    have inside : index < p.modules.length := length ▸ there
    have own := (alike index inside there).1
    simp only [List.get_eq_getElem] at own
    simp [Project.redeclare, Project.declarationsAt, Project.module?, there, ← own]
  cases q
  simp_all [Project.redeclare]

theorem declarationsAt_heeded (same : policy.Conflates p q) {index : Nat} {m : Module}
    (present : p.module? index = some m) (heeded : policy.ignoresModule m = false) :
    q.declarationsAt index m.declarations = m.declarations := by
  obtain ⟨length, alike⟩ := List.forall₂_iff_get.1 same.modules
  obtain ⟨inside, rfl⟩ := List.getElem?_eq_some_iff.1 present
  have there : index < q.modules.length := length ▸ inside
  have own := (alike index inside there).2 heeded
  simpa [Project.declarationsAt, Project.module?, there] using own

theorem declared_eq {given : Surroundings} {o : Options}
    (same : (Policy.ofOptions o).Conflates p q) :
    Run.declared (.ofOptions q given o) = Run.declared (.ofOptions p given o) := by
  have run : Run.declared ((Setting.ofOptions p given o).redeclare q.declarationsAt) =
      Run.declared (.ofOptions p given o) := by
    refine Run.declared_redeclare ?_ ?_ <;> intro index m heeds run
    · rw [same.declarationsAt_heeded heeds.present heeds.heeded]
    · rw [same.declarationsAt_heeded heeds.present heeds.heeded]
  rwa [Setting.redeclare, Setting.ofOptions, same.redeclares] at run

end Policy.Conflates

theorem align_congr_graph {p : Project} {given : Surroundings} {o : Options}
    {graph : Module → Except String Forest}
    (agree : ∀ m ∈ p.modules, (Policy.ofOptions o).ignoresModule m = false →
      graph m = given.graph m) :
    align p { given with graph } o = align p given o := by
  have run : Run.declared (.ofOptions p { given with graph } o) =
      Run.declared (.ofOptions p given o) := rfl
  have gathered : Candidates.gather (.ofOptions p { given with graph } o) [] p.modules =
      Candidates.gather (.ofOptions p given o) [] p.modules := by
    refine Candidates.gather_congr ?_ ?_ ?_ ?_ []
    · rfl
    · rfl
    · rfl
    · exact List.forall₂_same.2 fun m member => ⟨rfl, agree m member⟩
  simp only [Setting.ofOptions] at run gathered
  simp only [align, run, gathered]
  rfl

structure Run.Spares (run : Run) (index : Nat) : Prop where
  changed : ∀ change ∈ run.changes.changes, change.coordinate?.isSome → change.owner ≠ index
  unaligned : ∀ u ∈ run.unaligned, u.owner ≠ index
  warned : ∀ w ∈ run.warnings, w.owner ≠ index

theorem Run.declared_spares {s : Setting} {index : Nat} {m : Module}
    (present : s.project.module? index = some m) (ignored : s.policy.ignoresModule m = true) :
    (declared s).Spares index := by
  obtain ⟨changed, -, unaligned, warned⟩ := concerns_declared s
  -- What a run is concerned about belongs to a module that takes part.
  have apart : ∀ owner c, s.Involves owner c → owner ≠ index := by
    rintro owner c ⟨⟨n, d, heeds, -, -⟩, -⟩ rfl
    have same : n = m := Option.some.inj (heeds.present.symm.trans present)
    simp [same ▸ heeds.heeded] at ignored
  refine ⟨fun change member named => ?_, fun u member => apart _ _ (unaligned u member),
    fun w member => apart _ _ (warned w member)⟩
  obtain ⟨c, named⟩ := Option.isSome_iff_exists.1 named
  exact apart _ c (changed change member c named)

/-- What ignored modules declare and what they need does not count, and it is left alone. -/
theorem align_ignored_modules (p : Project) (given : Surroundings) (o : Options) :
    (∀ q, (Policy.ofOptions o).Conflates p q →
      Run.declared (.ofOptions q given o) = Run.declared (.ofOptions p given o)) ∧
    (∀ graph : Module → Except String Forest,
      (∀ m ∈ p.modules, (Policy.ofOptions o).ignoresModule m = false → graph m = given.graph m) →
      align p { given with graph } o = align p given o) ∧
    ∀ index m, p.module? index = some m → (Policy.ofOptions o).ignoresModule m = true →
      (Run.declared (.ofOptions p given o)).Spares index := by
  refine ⟨?_, ?_, ?_⟩
  · intro q same
    exact same.declared_eq
  · intro graph agree
    exact align_congr_graph agree
  · intro index m present ignored
    exact Run.declared_spares present ignored

def legacyParent (declarations : List Declaration) : Project where
  modules := [
    { group := "org.acme", artifact := "legacy", version := "1"
      properties := [("netty", "1.0")]
      declarations },
    { group := "org.acme", artifact := "core", version := "1", isRoot := true
      parent := some (.inside 0)
      declarations := [
        { coordinate := ⟨"io.netty", "netty-codec", "jar", none⟩
          version := some "$\x7bnetty\x7d" }] }]
  root := 1

theorem align_ignored_modules_legacy :
    let o : Options := { ignoreModules := ["org.acme:legacy"] }
    let given := twoVersions.serve .alone
    let p := legacyParent [
      { coordinate := ⟨"io.netty", "netty-buffer", "jar", none⟩, version := some "1.0" }]
    let graph (m : Module) : Except String Forest :=
      if m.artifact = "legacy" then .error "unresolved" else .ok []
    let run := Run.declared (.ofOptions p given o)
    legacyParent [] ≠ p ∧ Run.declared (.ofOptions (legacyParent []) given o) = run ∧
      (∃ m ∈ p.modules, graph m ≠ given.graph m) ∧
      align p { given with graph } o = align p given o ∧
      run.Spares 0 ∧ .setProperty 0 "netty" "2.1" ∈ run.changes.changes := by
  intro o given p graph run
  obtain ⟨declared, graphs, spares⟩ := align_ignored_modules p given o
  have conflated : (Policy.ofOptions o).Conflates p (legacyParent []) := by
    refine ⟨rfl, .cons ⟨rfl, fun heeded => ?_⟩ (.cons ⟨rfl, fun _ => rfl⟩ .nil)⟩
    exact absurd heeded (by decide)
  refine ⟨by decide, declared _ conflated, ⟨_, List.mem_cons_self, nofun⟩, ?_, ?_,
    by decide +kernel⟩
  · refine graphs graph fun m member heeded => ?_
    obtain rfl | rfl : m = _ ∨ m = _ := by simpa [p, legacyParent] using member
    · exact absurd heeded (by decide)
    · rfl
  · exact spares 0 _ rfl (by decide)

end VersionAlignment
