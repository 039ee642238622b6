import VersionAlignment.Proofs.Idle
import VersionAlignment.Proofs.Injections
import VersionAlignment.Proofs.KeptVersions
import VersionAlignment.Proofs.ManifestChannel

set_option autoImplicit false

namespace VersionAlignment

open Property

/-- The declarations that take part and that the channel covers are at its versions, whether they
are ignored or not. -/
def Setting.DeclaredAligned (s : Setting) : Prop :=
  ∀ (index : Nat) (m : Module) (d : Declaration) (raw current target : String),
    s.project.module? index = some m →
    s.policy.ignoresModule m = false → d.IsFirst m.declarations → d.version = some raw →
    s.project.owns d.coordinate = false → (Written.read s index raw).current? = some current →
    s.given.channel d.coordinate current = some target → Version.compare current target = .eq

namespace Run

variable {s : Setting}

end Run

theorem Verdict.Rests.unaligned_eq_nil {s : Setting} {v : Verdict} {index : Nat} {c : Coordinate}
    {raw target : String} {written : Written} (rests : v.Rests index c raw target written)
    (same : ∀ current, written.current? = some current → s.isSame current target = true) :
    v.unaligned s index c = [] := by
  unfold unaligned
  split
  · next old new reason gap =>
    obtain ⟨read, rfl⟩ := rests.behind old new reason gap
    simp [same old read]
  · rfl

namespace Run

variable {s : Setting}

structure Quiet (s : Setting) (run : Run) : Prop where
  sound : Sound s run
  unchanged : run.changes.changes = []
  aligned : run.unaligned = []

theorem Quiet.judge {run : Run} (quiet : Quiet s run) (maven : s.given.order = Version.compare)
    (index : Nat) (d : Declaration) (raw : String)
    (same : s.project.owns d.coordinate = false → ∀ current target,
      (Written.read s index raw).current? = some current →
      s.given.channel d.coordinate current = some target → s.isSame current target = true) :
    (judge s run index d raw).change? index d.coordinate raw = none ∧
      (judge s run index d raw).unaligned s index d.coordinate = [] := by
  have judged := judge_judged s run index d raw
  generalize verdict : VersionAlignment.judge s run index d raw = v at judged
  cases judged with
  | exempt | silent | uncovered => exact ⟨rfl, rfl⟩
  | ignored foreign _ read covered =>
    exact ⟨rfl, by simp [Verdict.unaligned, Verdict.gap?, same foreign _ _ read covered]⟩
  | @live target live =>
    have equal : ∀ current, (Written.read s index raw).current? = some current →
        s.isSame current target = true := by
      intro current read
      exact same live.foreign current target read (by simpa [read] using live.covered)
    have rests := quiet.sound.rests quiet.unchanged live fun current read =>
      Setting.isMove_of_isSame maven (equal current read)
    rw [verdict] at rests
    exact ⟨rests.unchanged, rests.unaligned_eq_nil equal⟩

theorem Quiet.step (maven : s.given.order = Version.compare) (unforced : s.policy.Unforced)
    (aligned : s.DeclaredAligned) {run : Run} (quiet : Quiet s run) {step : Step}
    (member : step ∈ steps s) : Quiet s (step.perform s run) := by
  cases step with
  | property => rwa [perform_property unforced]
  | dependency => rwa [perform_dependency unforced]
  | note message => exact ⟨quiet.sound.note message, quiet.unchanged, quiet.aligned⟩
  | declaration index d =>
    obtain ⟨m, inside, included, first⟩ := declaration_mem_steps.1 member
    simp only [Step.perform, alignDeclaration]
    split
    · exact quiet
    · next raw version =>
      obtain ⟨unchanged, unreported⟩ := quiet.judge maven index d raw
        fun foreign current target read covered => by
          have equal := aligned index m d raw current target inside included first version foreign
            read covered
          simp [Setting.isSame, maven, equal]
      refine ⟨quiet.sound.judged index d raw, ?_, ?_⟩
      · rw [carryOut_changes, unchanged]
        exact quiet.unchanged
      · rw [carryOut_unaligned, unreported, quiet.aligned, List.nil_append]

end Run

end VersionAlignment
