import VersionAlignment.Proofs.Candidates
import VersionAlignment.Proofs.Injections
import VersionAlignment.Proofs.RunInduction

set_option autoImplicit false

namespace VersionAlignment

def Change.coordinate? : Change → Option Coordinate
  | .overrideVersion _ c _ _ => some c
  | .manage _ c _ _ _ => some c
  | _ => none

namespace Run

structure Concerns (about : Nat → Coordinate → Prop) (run : Run) : Prop where
  changed : ∀ change ∈ run.changes.changes, ∀ c ∈ change.coordinate?, about change.owner c
  uncovered : ∀ c ∈ run.notCovered, ∃ index, about index c
  unaligned : ∀ u ∈ run.unaligned, about u.owner u.coordinate
  warned : ∀ w ∈ run.warnings, about w.owner w.coordinate

section

variable {about : Nat → Coordinate → Prop} {run : Run} {s : Setting} {index : Nat} {c : Coordinate}

theorem Concerns.note (concerns : Concerns about run) (message : String) :
    Concerns about (run.note message) :=
  ⟨concerns.changed, concerns.uncovered, concerns.unaligned, concerns.warned⟩

theorem Concerns.lock (concerns : Concerns about run) (site : Property.Site) (value : String)
    (origin : LockOrigin) : Concerns about (run.lock site value origin) :=
  ⟨concerns.changed, concerns.uncovered, concerns.unaligned, concerns.warned⟩

theorem Concerns.settle (concerns : Concerns about run) (owner : Nat) (other : Coordinate) :
    Concerns about (run.settle owner other) :=
  ⟨concerns.changed, concerns.uncovered, concerns.unaligned, concerns.warned⟩

theorem Concerns.push (concerns : Concerns about run) {change : Change}
    (own : ∀ c ∈ change.coordinate?, about change.owner c) :
    Concerns about (run.push change) := by
  refine ⟨fun other member => ?_, concerns.uncovered, concerns.unaligned, concerns.warned⟩
  rcases ChangeSet.mem_insert.1 member with before | rfl
  · exact concerns.changed other before
  · exact own

theorem Concerns.replace (concerns : Concerns about run) (own : about index c)
    (old new : String) : Concerns about (run.push (.overrideVersion index c old new)) := by
  refine concerns.push ?_
  rintro _ ⟨⟩
  exact own

theorem Concerns.write (concerns : Concerns about run) (site : Property.Site) (value : String) :
    Concerns about (run.push (propertyWrite site value)) := by
  refine concerns.push fun c named => ?_
  rcases site with ⟨_, _, _ | _⟩ <;> cases named

theorem Concerns.leaveUncovered (concerns : Concerns about run) (own : about index c) :
    Concerns about (run.leaveUncovered c) := by
  refine ⟨concerns.changed, fun other member => ?_, concerns.unaligned, concerns.warned⟩
  rcases Sorted.mem_insert.1 member with rfl | before
  · exact ⟨index, own⟩
  · exact concerns.uncovered other before

theorem Concerns.warn (concerns : Concerns about run) {w : Warning}
    (own : about w.owner w.coordinate) : Concerns about (run.warn w) := by
  refine ⟨concerns.changed, concerns.uncovered, concerns.unaligned, fun other member => ?_⟩
  rcases List.mem_append.1 member with before | new
  · exact concerns.warned other before
  · exact List.mem_singleton.1 new ▸ own

theorem Concerns.report (concerns : Concerns about run) {u : Unaligned}
    (own : about u.owner u.coordinate) : Concerns about (run.report s u) := by
  unfold Run.report
  split
  · exact concerns
  · refine ⟨concerns.changed, concerns.uncovered, fun other member => ?_, concerns.warned⟩
    rcases List.mem_append.1 member with before | new
    · exact concerns.unaligned other before
    · exact List.mem_singleton.1 new ▸ own

theorem Concerns.carryOut (concerns : Concerns about run) (own : about index c) (raw : String)
    (v : Verdict) : Concerns about (run.carryOut s index c raw v) := by
  cases v with
  | pass => exact concerns
  | uncovered => exact concerns.leaveUncovered own
  | unresolved => exact concerns.warn own
  | leave => exact concerns.report own
  | inline | inlineBeside => exact (concerns.note _).replace own _ _
  | write => exact ((concerns.note _).lock _ _ _).write _ _
  | hold => exact (concerns.report own).lock _ _ _
  | withhold => exact ((concerns.warn own).report own).lock _ _ _

theorem Concerns.property (concerns : Concerns about run) (m : Module)
    (entry : String × String) : Concerns about (Override.property s m index run entry) := by
  obtain ⟨name, current⟩ := entry
  unfold Override.property
  dsimp only
  split
  · exact concerns
  · split
    · exact concerns
    · split
      · exact concerns.lock _ _ _
      · exact ((concerns.lock _ _ _).note _).write ⟨index, name, false⟩ _

theorem Concerns.inPlace (concerns : Concerns about run) (own : about index c)
    (raw current wanted : String) :
    Concerns about (Override.inPlace run index c raw current wanted) := by
  unfold Override.inPlace
  split
  · exact concerns
  · exact (concerns.note _).replace own _ _

theorem Concerns.resolution? (concerns : Concerns about run) (own : about index c)
    (raw : String) : Concerns about (Override.resolution? s index c raw run).1 := by
  unfold Override.resolution?
  split
  · exact concerns
  · split
    · exact concerns
    · split
      · exact concerns
      · exact concerns.warn own

theorem Concerns.version (concerns : Concerns about run) (own : about index c)
    (raw wanted : String) : Concerns about (Override.version s index c raw wanted run) := by
  have start : Concerns about (Override.resolution? s index c raw run).1 :=
    concerns.resolution? own raw
  unfold Override.version
  split
  · next found =>
    rw [found] at start
    exact start.inPlace own _ _ _
  · next site current found =>
    rw [found] at start
    split
    · exact start.inPlace own _ _ _
    · split
      · split
        · exact (start.note _).lock _ _ _
        · exact ((start.note _).lock _ _ _).write ⟨site.owner, site.name, false⟩ wanted
      · split
        · exact start
        · exact start.inPlace own _ _ _

end

end Run

structure Setting.Involves (s : Setting) (index : Nat) (c : Coordinate) : Prop where
  declared : ∃ m d, s.Heeds index m ∧ d ∈ m.declarations ∧ d.coordinate = c
  foreign : s.project.owns c = false

namespace Run

variable {s : Setting} {run : Run} {index : Nat} {d : Declaration}

theorem alignDeclaration_owned (owned : s.project.owns d.coordinate = true) :
    alignDeclaration s index run d = run := by
  unfold alignDeclaration
  split
  · rfl
  · simp [judge, owned, carryOut]

theorem concerns_declared (s : Setting) : Concerns s.Involves (declared s) := by
  refine declared_induction ⟨by simp, by simp, by simp, by simp⟩ ?_ ?_ ?_ ?_
  · exact fun _ _ m _ _ _ _ concerns => concerns.property m _
  · intro run index m d heeds declares concerns
    rcases Override.declaration_cases s index run d with idle | ⟨raw, wanted, asks, -, moves⟩
    · rwa [idle]
    · rw [moves]
      exact (concerns.settle _ _).version ⟨⟨m, d, heeds, declares, rfl⟩, asks.foreign⟩ _ _
  · exact fun _ message concerns => concerns.note message
  · intro run index m d heeds declares _ concerns
    cases foreign : s.project.owns d.coordinate with
    | true => rwa [alignDeclaration_owned foreign]
    | false =>
      unfold alignDeclaration
      split
      · exact concerns
      · exact concerns.carryOut ⟨⟨m, d, heeds, declares, rfl⟩, foreign⟩ _ _

end Run

end VersionAlignment
