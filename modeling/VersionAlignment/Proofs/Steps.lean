import VersionAlignment.Proofs.Effects

set_option autoImplicit false

namespace VersionAlignment

namespace Run

inductive Step
  | property (m : Module) (index : Nat) (entry : String × String)
  | dependency (index : Nat) (d : Declaration)
  | note (message : String)
  | declaration (index : Nat) (d : Declaration)

def Step.perform (s : Setting) (run : Run) : Step → Run
  | .property m index entry => Override.property s m index run entry
  | .dependency index d => Override.declaration s index run d
  | .note message => run.note message
  | .declaration index d => alignDeclaration s index run d

def perform (s : Setting) (run : Run) (steps : List Step) : Run := steps.foldl (Step.perform s) run

def overrideSteps (s : Setting) (entry : Module × Nat) : List Step :=
  let (m, index) := entry
  if s.policy.ignoresModule m then []
  else m.properties.map (.property m index) ++ m.declarations.map (.dependency index)

def alignmentSteps (s : Setting) (entry : Module × Nat) : List Step :=
  let (m, index) := entry
  if s.policy.ignoresModule m then [.note s!"Skipping ignored module {m}"]
  else .note s!"Aligning module {m}" ::
    (firstDeclarations [] m.declarations).map (.declaration index)

def steps (s : Setting) : List Step :=
  s.project.indexed.flatMap (overrideSteps s) ++ s.project.indexed.flatMap (alignmentSteps s)

@[simp] theorem perform_nil (s : Setting) (run : Run) : run.perform s [] = run := rfl

@[simp] theorem perform_cons (s : Setting) (run : Run) (step : Step) (rest : List Step) :
    run.perform s (step :: rest) = (step.perform s run).perform s rest := rfl

@[simp] theorem perform_append (s : Setting) (run : Run) (as bs : List Step) :
    run.perform s (as ++ bs) = (run.perform s as).perform s bs := by
  simp [perform, List.foldl_append]

theorem perform_flatMap {α : Type} (s : Setting) (f : Run → α → Run) (steps : α → List Step)
    (same : ∀ run a, run.perform s (steps a) = f run a) (run : Run) (as : List α) :
    run.perform s (as.flatMap steps) = as.foldl f run := by
  induction as generalizing run with
  | nil => rfl
  | cons a as ih => rw [List.flatMap_cons, perform_append, same, ih, List.foldl_cons]

theorem perform_overrideSteps (s : Setting) (run : Run) (entry : Module × Nat) :
    run.perform s (overrideSteps s entry) = Override.moduleEntries s run entry := by
  by_cases ignored : s.policy.ignoresModule entry.1 = true
  · simp [overrideSteps, Override.moduleEntries, ignored]
  · simp [overrideSteps, Override.moduleEntries, ignored, perform, List.foldl_map, Step.perform]

theorem perform_alignmentSteps (s : Setting) (run : Run) (entry : Module × Nat) :
    run.perform s (alignmentSteps s entry) = alignModule s run entry := by
  by_cases ignored : s.policy.ignoresModule entry.1 = true
  · simp [alignmentSteps, alignModule, ignored, Step.perform]
  · simp [alignmentSteps, alignModule, ignored, perform, List.foldl_map, Step.perform]

theorem perform_steps (s : Setting) : ({} : Run).perform s (steps s) = declared s := by
  -- The overrides of all modules go before the first declaration.
  rw [steps, perform_append,
    perform_flatMap s (Override.moduleEntries s) (overrideSteps s) (perform_overrideSteps s),
    perform_flatMap s (alignModule s) (alignmentSteps s) (perform_alignmentSteps s)]
  rfl

theorem overrides_eq (s : Setting) :
    Override.all s {} = ({} : Run).perform s (s.project.indexed.flatMap (overrideSteps s)) :=
  (perform_flatMap s (Override.moduleEntries s) _ (perform_overrideSteps s) _ _).symm

theorem declared_eq (s : Setting) : declared s =
    (Override.all s {}).perform s (s.project.indexed.flatMap (alignmentSteps s)) :=
  (perform_flatMap s (alignModule s) (alignmentSteps s) (perform_alignmentSteps s) _ _).symm

theorem alignment_mem_steps {s : Setting} {step : Step}
    (member : step ∈ s.project.indexed.flatMap (alignmentSteps s)) : step ∈ steps s :=
  List.mem_append.2 (.inr member)

theorem perform_induction {motive : Run → Prop} {s : Setting} {run : Run} {steps : List Step}
    (start : motive run)
    (step : ∀ run, ∀ step ∈ steps, motive run → motive (step.perform s run)) :
    motive (run.perform s steps) := by
  induction steps generalizing run with
  | nil => exact start
  | cons first rest ih =>
    exact ih (step run first List.mem_cons_self start)
      fun run other member => step run other (List.mem_cons_of_mem _ member)

theorem perform_turn {motive : Run → Prop} {s : Setting} {run : Run} {steps : List Step}
    (start : ¬ motive run) (ends : motive (run.perform s steps)) :
    ∃ front step back, steps = front ++ step :: back ∧ ¬ motive (run.perform s front) ∧
      motive (step.perform s (run.perform s front)) := by
  induction steps generalizing run with
  | nil => exact absurd ends start
  | cons first rest ih =>
    by_cases now : motive (first.perform s run)
    · exact ⟨[], first, rest, rfl, start, now⟩
    · obtain ⟨front, step, back, rfl, before, after⟩ := ih now ends
      exact ⟨first :: front, step, back, rfl, before, after⟩

theorem mem_indexed {p : Project} {m : Module} {index : Nat} :
    (m, index) ∈ p.indexed ↔ p.module? index = some m := by
  simp [Project.indexed, Project.module?, List.mem_zipIdx_iff_getElem?]

theorem indexed_split {p : Project} {m : Module} {index : Nat}
    (present : p.module? index = some m) :
    ∃ rest, p.indexed = p.indexed.take index ++ (m, index) :: rest ∧
      ∀ entry ∈ p.indexed.take index, entry.2 ≠ index := by
  have here : p.indexed[index]? = some (m, index) := by
    simpa [Project.indexed, Project.module?] using present
  obtain ⟨below, entry⟩ := List.getElem?_eq_some_iff.1 here
  refine ⟨p.indexed.drop (index + 1), ?_, ?_⟩
  · rw [← entry, ← List.drop_eq_getElem_cons below, List.take_append_drop]
  · intro other member
    obtain ⟨i, short, rfl⟩ := List.mem_take_iff_getElem.1 member
    simp only [Project.indexed, List.getElem_zipIdx]
    omega

theorem indexed_apart (p : Project) : p.indexed.Pairwise fun a b => a.2 ≠ b.2 := by
  refine List.pairwise_map.1 ?_
  rw [Project.indexed, List.zipIdx_map_snd]
  exact List.nodup_range'

theorem property_mem_steps {s : Setting} {m : Module} {index : Nat} {entry : String × String} :
    Step.property m index entry ∈ steps s ↔ s.project.module? index = some m ∧
      s.policy.ignoresModule m = false ∧ entry ∈ m.properties := by
  simp only [steps, List.mem_append, List.mem_flatMap, Prod.exists, mem_indexed, overrideSteps,
    alignmentSteps]
  constructor
  · rintro (⟨n, i, inside, member⟩ | ⟨n, i, inside, member⟩)
    · split at member
      · simp at member
      · next heeded =>
        simp only [List.mem_append, List.mem_map, Step.property.injEq, reduceCtorEq, and_false,
          exists_false, or_false] at member
        obtain ⟨_, bound, rfl, rfl, rfl⟩ := member
        exact ⟨inside, by simpa using heeded, bound⟩
    · split at member <;> simp at member
  · rintro ⟨inside, heeded, member⟩
    exact .inl ⟨m, index, inside, by simpa [heeded] using member⟩

theorem dependency_mem_overrideSteps {s : Setting} {entry : Module × Nat} {index : Nat}
    {d : Declaration} (member : .dependency index d ∈ overrideSteps s entry) :
    index = entry.2 := by
  by_cases ignored : s.policy.ignoresModule entry.1 = true
  · simp [overrideSteps, ignored] at member
  · simp only [overrideSteps, ignored, Bool.false_eq_true, if_false, List.mem_append,
      List.mem_map, reduceCtorEq, and_false, exists_false, Step.dependency.injEq,
      false_or] at member
    obtain ⟨_, -, own, -⟩ := member
    exact own.symm

theorem declaration_not_mem_overrideSteps {s : Setting} {entry : Module × Nat} {index : Nat}
    {d : Declaration} : .declaration index d ∉ overrideSteps s entry := by
  by_cases ignored : s.policy.ignoresModule entry.1 = true <;> simp [overrideSteps, ignored]

theorem declaration_mem_steps {s : Setting} {index : Nat} {d : Declaration} :
    Step.declaration index d ∈ steps s ↔ ∃ m, s.project.module? index = some m ∧
      s.policy.ignoresModule m = false ∧ d.IsFirst m.declarations := by
  simp only [steps, List.mem_append, List.mem_flatMap, Prod.exists, mem_indexed, overrideSteps,
    alignmentSteps]
  constructor
  · rintro (⟨n, i, inside, member⟩ | ⟨n, i, inside, member⟩)
    · split at member <;> simp at member
    · split at member
      · simp at member
      · next heeded =>
        simp only [List.mem_cons, reduceCtorEq, List.mem_map, Step.declaration.injEq,
          false_or] at member
        obtain ⟨_, first, rfl, rfl⟩ := member
        exact ⟨n, inside, by simpa using heeded, (mem_firstDeclarations.1 first).2⟩
  · rintro ⟨m, inside, heeded, first⟩
    exact .inr ⟨m, index, inside, by simpa [heeded, mem_firstDeclarations] using first⟩

end Run

end VersionAlignment
