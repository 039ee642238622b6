import VersionAlignment.Proofs.OverrideLocks

set_option autoImplicit false

namespace VersionAlignment

structure Setting.Heeds (s : Setting) (index : Nat) (m : Module) : Prop where
  present : s.project.module? index = some m
  heeded : s.policy.ignoresModule m = false

variable {s : Setting} {run : Run} {index : Nat} {m : Module} {d : Declaration}

namespace Override

theorem property_idle {name current : String}
    (settled : (s.policy.propertyOverride? name).isSome →
      (run.locks.get? ⟨index, name, false⟩).isSome) :
    property s m index run (name, current) = run := by
  cases forced : s.policy.propertyOverride? name with
  | none => simp [property, forced]
  | some value => simp [property, forced, settled (by simp [forced])]

theorem properties_induction {motive : Run → Prop} (start : motive run)
    (step : ∀ run name current, m.property? name = some current → motive run →
      motive (property s m index run (name, current))) :
    motive (m.properties.foldl (property s m index) run) := by
  suffices onward : ∀ before entries (run : Run), m.properties = before ++ entries →
      (∀ entry ∈ before, (s.policy.propertyOverride? entry.1).isSome →
        (run.locks.get? ⟨index, entry.1, false⟩).isSome) → motive run →
      motive (entries.foldl (property s m index) run) from
    onward [] m.properties run rfl (by simp) start
  intro before entries
  induction entries generalizing before with
  | nil => exact fun run _ _ held => held
  | cons entry rest ih =>
    intro run split tried held
    obtain ⟨name, current⟩ := entry
    refine ih (before ++ [(name, current)]) _ (by simp [split]) ?_ ?_
    · intro other member forced
      rw [property_get?, Option.isSome_or, Bool.or_eq_true]
      rcases List.mem_append.1 member with member | own
      · exact .inl (tried other member forced)
      · rw [List.mem_singleton] at own
        exact .inr (by simpa [own] using forced)
    · cases earlier : before.lookup name with
      | none =>
        refine step run name current ?_ held
        simp [Module.property?, split, List.lookup_append, earlier]
      | some value =>
        -- The first entry of a name is the one that counts, and later ones find it locked.
        obtain ⟨_, _, found, -⟩ := List.lookup_eq_some_iff.1 earlier
        have idle : property s m index run (name, current) = run :=
          property_idle fun forced => tried (name, value) (by simp [found]) forced
        rwa [idle]

end Override

namespace Run

theorem overridden_alignDeclaration (s : Setting) (index : Nat) (run : Run) (d : Declaration) :
    (alignDeclaration s index run d).overridden = run.overridden := by
  unfold alignDeclaration
  split
  · rfl
  · exact carryOut_overridden ..

theorem mem_overridden_perform {step : Step} {entry : Nat × Coordinate} :
    entry ∈ (step.perform s run).overridden ↔ entry ∈ run.overridden ∨
      ∃ d raw wanted, step = .dependency entry.1 d ∧ d.coordinate = entry.2 ∧
        Override.Asks s d raw wanted := by
  cases step with
  | property | note | declaration =>
    simp [Step.perform, Override.property_overridden, overridden_alignDeclaration, Run.note]
  | dependency index d =>
    obtain ⟨i, c⟩ := entry
    rw [Step.perform, Override.mem_overridden_declaration]
    grind

theorem overridden_of_mem {step : Step} {steps : List Step} {run : Run}
    {entry : Nat × Coordinate} (member : step ∈ steps)
    (settles : ∀ run : Run, entry ∈ (step.perform s run).overridden) :
    entry ∈ (run.perform s steps).overridden := by
  obtain ⟨front, back, rfl⟩ := List.append_of_mem member
  rw [perform_append, perform_cons]
  exact perform_induction (motive := fun run => entry ∈ run.overridden) (settles _)
    fun _ _ _ settled => mem_overridden_perform.2 (.inl settled)

theorem mem_overridden_all {raw wanted : String} (heeds : s.Heeds index m)
    (declares : d ∈ m.declarations) (asks : Override.Asks s d raw wanted) :
    (index, d.coordinate) ∈ (Override.all s {}).overridden := by
  have own : Step.dependency index d ∈ overrideSteps s (m, index) := by
    simp [overrideSteps, heeds.heeded, declares]
  rw [overrides_eq]
  exact overridden_of_mem (List.mem_flatMap.2 ⟨(m, index), mem_indexed.2 heeds.present, own⟩)
    fun _ => mem_overridden_perform.2 (.inr ⟨d, raw, wanted, rfl, rfl, asks⟩)

theorem declared_induction {motive : Run → Prop} (start : motive {})
    (property : ∀ run index m name current, s.Heeds index m → m.property? name = some current →
      motive run → motive (Override.property s m index run (name, current)))
    (dependency : ∀ run index m d, s.Heeds index m → d ∈ m.declarations →
      motive run → motive (Override.declaration s index run d))
    (note : ∀ run message, motive run → motive (run.note message))
    (declaration : ∀ run index m d, s.Heeds index m → d ∈ m.declarations →
      (∀ raw wanted, Override.Asks s d raw wanted → (index, d.coordinate) ∈ run.overridden) →
      motive run → motive (alignDeclaration s index run d)) : motive (declared s) := by
  have forced : motive (Override.all s {}) := by
    refine List.foldlRecOn _ _ start fun run held entry member => ?_
    obtain ⟨m, index⟩ := entry
    by_cases ignored : s.policy.ignoresModule m = true
    · simpa [Override.moduleEntries, ignored] using held
    · have heeds : s.Heeds index m := ⟨mem_indexed.1 member, by simpa using ignored⟩
      simp only [Override.moduleEntries, ignored, Bool.false_eq_true, if_false]
      refine List.foldlRecOn _ _ ?_ fun run held d declares =>
        dependency run index m d heeds declares held
      exact Override.properties_induction held fun run name current own =>
        property run index m name current heeds own
  suffices both : motive (declared s) ∧
      (declared s).overridden = (Override.all s {}).overridden from both.1
  refine List.foldlRecOn (motive := fun run => motive run ∧
    run.overridden = (Override.all s {}).overridden) _ _ ⟨forced, rfl⟩
    fun run held entry member => ?_
  obtain ⟨m, index⟩ := entry
  by_cases ignored : s.policy.ignoresModule m = true
  · simp only [alignModule, ignored, if_true]
    exact ⟨note run _ held.1, held.2⟩
  · have heeds : s.Heeds index m := ⟨mem_indexed.1 member, by simpa using ignored⟩
    simp only [alignModule, ignored, Bool.false_eq_true, if_false]
    refine List.foldlRecOn (motive := fun run => motive run ∧
      run.overridden = (Override.all s {}).overridden) _ _ ⟨note run _ held.1, held.2⟩
      fun run held d first => ?_
    obtain ⟨before, after, split, -⟩ := (mem_firstDeclarations.1 first).2
    have declares : d ∈ m.declarations := by simp [split]
    refine ⟨declaration run index m d heeds declares (fun raw wanted asks => ?_) held.1, ?_⟩
    · rw [held.2]
      exact mem_overridden_all heeds declares asks
    · rw [overridden_alignDeclaration, held.2]

end Run

end VersionAlignment
