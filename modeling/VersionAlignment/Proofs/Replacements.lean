import VersionAlignment.Proofs.Additions
import VersionAlignment.Proofs.ChangedProject
import VersionAlignment.Proofs.RunInduction

set_option autoImplicit false

namespace VersionAlignment

open Property

def Declaration.gives (c : Coordinate) (d : Declaration) : Bool :=
  d.coordinate = c ∧ d.version.isSome

def Module.giving? (m : Module) (c : Coordinate) : Option Declaration :=
  m.declarations.find? (·.gives c)

theorem Module.coordinate_of_giving? (m : Module) {c : Coordinate} {d : Declaration}
    (gives : m.giving? c = some d) : d.coordinate = c := by
  have own := List.find?_some gives
  simp only [Declaration.gives, decide_eq_true_eq] at own
  exact own.1

theorem Module.giving?_revised (m : Module) (index : Nat) (c : Coordinate) {changes : List Change}
    (plain : ∀ owner c version exclusions former,
      .manage owner c version exclusions former ∉ changes) :
    (m.revised index changes).giving? c = (m.giving? c).map (·.revised index changes) := by
  have same : (Declaration.gives c) ∘ (fun d => d.revised index changes) = Declaration.gives c := by
    funext d
    simp [Declaration.gives, (d.kept_revised index changes).1,
      d.isSome_version_revised index changes]
  rw [giving?, m.declarations_revised index plain, List.find?_map, same, giving?]

namespace Run

variable {s : Setting} {run : Run}

theorem replaced_of_step {step : Step} {index : Nat} {c : Coordinate} {old new : String}
    (member : .overrideVersion index c old new ∈ (step.perform s run).changes.changes) :
    .overrideVersion index c old new ∈ run.changes.changes ∨
      (index, c) ∉ run.overridden ∧ Replaces s run index c old new step :=
  (adds_of_step member).imp_right Adds.replaces

theorem replaced_of_settled {index : Nat} {c : Coordinate} {old new : String} {steps : List Step}
    (settled : (index, c) ∈ run.overridden)
    (member : .overrideVersion index c old new ∈ (run.perform s steps).changes.changes) :
    .overrideVersion index c old new ∈ run.changes.changes := by
  have kept : (index, c) ∈ (run.perform s steps).overridden ∧
      (.overrideVersion index c old new ∈ (run.perform s steps).changes.changes →
        .overrideVersion index c old new ∈ run.changes.changes) := by
    refine perform_induction (motive := fun later => (index, c) ∈ later.overridden ∧
      (.overrideVersion index c old new ∈ later.changes.changes →
        .overrideVersion index c old new ∈ run.changes.changes)) ⟨settled, id⟩ ?_
    intro later step _ ⟨settled, before⟩
    exact ⟨mem_overridden_perform.2 (.inl settled), fun member =>
      before ((replaced_of_step member).resolve_right fun late => late.1 settled)⟩
  exact kept.2 member

theorem unreplaced_of_unsettled {index : Nat} {c : Coordinate} {steps : List Step}
    (forced : ∀ i d, .declaration i d ∉ steps)
    (unsettled : (index, c) ∉ (({} : Run).perform s steps).overridden) (old new : String) :
    .overrideVersion index c old new ∉ (({} : Run).perform s steps).changes.changes := by
  refine Or.resolve_left (perform_induction
    (motive := fun run => (index, c) ∈ run.overridden ∨
      .overrideVersion index c old new ∉ run.changes.changes) (.inr (by simp)) ?_) unsettled
  intro run step member either
  rcases either with settled | unreplaced
  · exact .inl (mem_overridden_perform.2 (.inl settled))
  · by_cases now : .overrideVersion index c old new ∈ (step.perform s run).changes.changes
    · obtain ⟨-, replaces⟩ := (replaced_of_step now).resolve_left unreplaced
      cases replaces with
      | asked same asks =>
        exact .inl (mem_overridden_perform.2 (.inr ⟨_, old, new, rfl, same, asks⟩))
      | judged => exact absurd member (forced _ _)
    · exact .inr now

def ReplacedBy (index : Nat) (c : Coordinate) (wanted : String) (run : Run) : Prop :=
  ∀ old new, .overrideVersion index c old new ∈ run.changes.changes → new = wanted

theorem dependency_split {m : Module} {index : Nat} {c : Coordinate} {d : Declaration}
    (present : s.project.module? index = some m) (heeded : s.policy.ignoresModule m = false)
    (gives : m.giving? c = some d) :
    ∃ front back, steps s = front ++ .dependency index d :: back ∧
      (∀ i e, .declaration i e ∉ front) ∧
      (index, c) ∉ (({} : Run).perform s front).overridden := by
  obtain ⟨rest, indexed, elsewhere⟩ := indexed_split present
  obtain ⟨-, before, after, declared, missed⟩ := List.find?_eq_some_iff_append.1 gives
  refine ⟨(s.project.indexed.take index).flatMap (overrideSteps s) ++
    (m.properties.map (.property m index) ++ before.map (.dependency index)),
    after.map (.dependency index) ++ (rest.flatMap (overrideSteps s) ++
      s.project.indexed.flatMap (alignmentSteps s)), ?_, ?_, ?_⟩
  · have own : overrideSteps s (m, index) = m.properties.map (.property m index) ++
        (before.map (.dependency index) ++ .dependency index d ::
          after.map (.dependency index)) := by
      simp [overrideSteps, heeded, declared]
    have all : s.project.indexed.flatMap (overrideSteps s) =
        (s.project.indexed.take index ++ (m, index) :: rest).flatMap (overrideSteps s) :=
      congrArg _ indexed
    rw [steps, all, List.flatMap_append, List.flatMap_cons, own]
    simp
  · intro i e member
    simp only [List.mem_append, List.mem_flatMap, List.mem_map, reduceCtorEq, and_false,
      exists_false, or_false] at member
    obtain ⟨entry, -, member⟩ := member
    exact declaration_not_mem_overrideSteps member
  -- Only an earlier declaration of the coordinate with a version could have settled it.
  · refine perform_induction (motive := fun run => (index, c) ∉ run.overridden) (by simp)
      fun run step member unsettled settled => ?_
    rcases mem_overridden_perform.1 settled with before | ⟨e, raw, wanted, rfl, same, asks⟩
    · exact unsettled before
    · simp only [List.mem_append, List.mem_flatMap, List.mem_map] at member
      rcases member with ⟨entry, earlier, member⟩ | ⟨_, _, member⟩ | ⟨_, earlier, member⟩
      · exact elsewhere entry earlier (dependency_mem_overrideSteps member).symm
      · cases member
      · cases member
        have missed := missed e earlier
        simp [Declaration.gives, same, asks.version] at missed

theorem replaced_of_asks {m : Module} {index : Nat} {d : Declaration} {raw wanted : String}
    (present : s.project.module? index = some m) (heeded : s.policy.ignoresModule m = false)
    (gives : m.giving? d.coordinate = some d) (asks : Override.Asks s d raw wanted)
    {old new : String}
    (member : .overrideVersion index d.coordinate old new ∈ (declared s).changes.changes) :
    old = raw ∧ new = wanted := by
  obtain ⟨front, back, split, forced, fresh⟩ := dependency_split present heeded gives
  rw [← perform_steps, split, perform_append, perform_cons] at member
  have settled := mem_overridden_perform.2
    (.inr ⟨d, raw, wanted, rfl, rfl, asks⟩ :
      (index, d.coordinate) ∈ (({} : Run).perform s front).overridden ∨ _)
  have own := (replaced_of_step (replaced_of_settled settled member)).resolve_left
    (unreplaced_of_unsettled forced fresh old new)
  cases own.2 with
  | asked _ other => exact asks.unique other

theorem dependency_moved {m : Module} {index : Nat} {d : Declaration} {raw wanted : String}
    (present : s.project.module? index = some m) (heeded : s.policy.ignoresModule m = false)
    (gives : m.giving? d.coordinate = some d) (asks : Override.Asks s d raw wanted) :
    ∃ before later, Override.Moved s index d.coordinate raw wanted before later ∧
      (∀ site lock, later.locks.get? site = some lock →
        (declared s).locks.get? site = some lock) ∧
      (∀ change ∈ later.changes.changes, change ∈ (declared s).changes.changes) ∧
      ReplacedBy index d.coordinate wanted (declared s) := by
  obtain ⟨front, back, split, -, fresh⟩ := dependency_split present heeded gives
  let own := Step.dependency index d
  let start := ({} : Run).perform s front
  have all : ∀ step ∈ back, step ∈ steps s := fun step member => by simp [split, member]
  have moves : own.perform s start =
      Override.version s index d.coordinate raw wanted (start.settle index d.coordinate) :=
    Override.declaration_of_asks asks fresh
  have ends : declared s = (own.perform s start).perform s back := by
    rw [← perform_steps, split, perform_append, perform_cons]
  refine ⟨start.settle index d.coordinate, own.perform s start, ?_, ?_, ?_, ?_⟩
  · exact moves ▸ Override.version_moved ..
  · exact fun site lock locked => ends ▸ locks_stay all locked
  · exact fun change member => ends ▸ changes_stay all member
  · exact fun old new member => (replaced_of_asks present heeded gives asks member).2

end Run

end VersionAlignment
