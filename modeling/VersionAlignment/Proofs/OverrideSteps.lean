import VersionAlignment.Proofs.Steps

set_option autoImplicit false

namespace VersionAlignment

open Property

def Run.findings (run : Run) : List Coordinate × List Unaligned := (run.notCovered, run.unaligned)

namespace Override

variable {s : Setting} {run : Run} {index : Nat}

inductive Bound (s : Setting) (index : Nat) (name current : String) (run : Run) : Run → Prop
  | idle : s.policy.propertyOverride? name = none ∨
      (run.locks.get? ⟨index, name, false⟩).isSome → Bound s index name current run run
  | lock {value : String} {later : Run} : s.policy.propertyOverride? name = some value →
      run.locks.get? ⟨index, name, false⟩ = none →
      later.locks = run.locks.lock ⟨index, name, false⟩ ⟨value, .override⟩ →
      current = value ∧ later.changes = run.changes ∨
        current ≠ value ∧ later.changes = run.changes.insert (.setProperty index name value) →
      Bound s index name current run later

theorem property_bound (s : Setting) (m : Module) (index : Nat) (run : Run)
    (name current : String) :
    Bound s index name current run (property s m index run (name, current)) := by
  unfold property
  cases forced : s.policy.propertyOverride? name with
  | none =>
    simp only [forced]
    exact .idle (.inl forced)
  | some value =>
    cases free : run.locks.get? ⟨index, name, false⟩ with
    | some lock =>
      simp only [forced, free, Option.isSome_some, if_true]
      exact .idle (.inr (by simp [free]))
    | none =>
      simp only [forced, free, Option.isSome_none, Bool.false_eq_true, if_false]
      split
      · next same => exact .lock forced free rfl (.inl ⟨same, rfl⟩)
      · next other => exact .lock forced free rfl (.inr ⟨other, rfl⟩)

theorem property_overridden (s : Setting) (m : Module) (index : Nat) (run : Run)
    (entry : String × String) : (property s m index run entry).overridden = run.overridden := by
  obtain ⟨name, current⟩ := entry
  unfold property
  dsimp only
  split
  · rfl
  · split
    · rfl
    · split <;> rfl

structure Asks (s : Setting) (d : Declaration) (raw wanted : String) : Prop where
  version : d.version = some raw
  wanted : s.policy.dependencyOverride? d.coordinate = some wanted
  foreign : s.project.owns d.coordinate = false

theorem Asks.unique {d : Declaration} {raw wanted old new : String} (first : Asks s d raw wanted)
    (second : Asks s d old new) : old = raw ∧ new = wanted :=
  ⟨Option.some.inj (second.version.symm.trans first.version),
    Option.some.inj (second.wanted.symm.trans first.wanted)⟩

theorem declaration_of_asks {d : Declaration} {raw wanted : String} (asks : Asks s d raw wanted)
    (free : (index, d.coordinate) ∉ run.overridden) : declaration s index run d =
      version s index d.coordinate raw wanted (run.settle index d.coordinate) := by
  simp [declaration, asks.version, asks.wanted, asks.foreign, free]

theorem declaration_idle {d : Declaration}
    (settled : ∀ raw wanted, Asks s d raw wanted → (index, d.coordinate) ∈ run.overridden) :
    declaration s index run d = run := by
  unfold declaration
  split
  · next wanted raw forced text =>
    split
    · rfl
    · next open_ =>
      simp only [Bool.or_eq_true, List.contains_iff_mem, not_or] at open_
      exact absurd (settled raw wanted ⟨text, forced, by simpa using open_.1⟩) open_.2
  · rfl

theorem declaration_cases (s : Setting) (index : Nat) (run : Run) (d : Declaration) :
    declaration s index run d = run ∨ ∃ raw wanted, Asks s d raw wanted ∧
      (index, d.coordinate) ∉ run.overridden ∧ declaration s index run d =
        version s index d.coordinate raw wanted (run.settle index d.coordinate) := by
  by_cases settled : (index, d.coordinate) ∈ run.overridden
  · exact .inl (declaration_idle fun _ _ _ => settled)
  · by_cases asked : ∃ raw wanted, Asks s d raw wanted
    · obtain ⟨raw, wanted, asks⟩ := asked
      exact .inr ⟨raw, wanted, asks, settled, declaration_of_asks asks settled⟩
    · exact .inl (declaration_idle fun raw wanted asks => absurd ⟨raw, wanted, asks⟩ asked)

structure Refers (s : Setting) (index : Nat) (raw : String) (r : Resolution) : Prop where
  apart : s.options.inlineVersions = false
  named : ∃ name, reference? raw = some name ∧ s.resolve index name = .ok (some r)

theorem Refers.unique {raw : String} {a b : Resolution} (first : Refers s index raw a)
    (second : Refers s index raw b) : a = b := by
  obtain ⟨name, named, resolved⟩ := first.named
  obtain ⟨other, named', resolved'⟩ := second.named
  rw [named, Option.some.injEq] at named'
  simpa [named', resolved'] using resolved.symm

def Barred (s : Setting) (index : Nat) (raw : String) (locks : Locks) : Prop :=
  ∀ r, Refers s index raw r → r.site.outside = true ∨ (locks.get? r.site).isSome

theorem barred_of_unresolved {raw name : String} (named : reference? raw = some name)
    (unresolved : ∀ r, s.resolve index name ≠ .ok (some r)) (locks : Locks) :
    Barred s index raw locks := by
  intro r refers
  obtain ⟨other, named', resolved⟩ := refers.named
  rw [named, Option.some.injEq] at named'
  exact absurd (named' ▸ resolved) (unresolved r)

theorem barred_of_outside {raw : String} {r : Resolution} (refers : Refers s index raw r)
    (outside : r.site.outside = true) (locks : Locks) : Barred s index raw locks :=
  fun _ found => .inl (refers.unique found ▸ outside)

theorem barred_of_locked {raw : String} {r : Resolution} {locks : Locks} {lock : Lock}
    (refers : Refers s index raw r) (locked : locks.get? r.site = some lock) :
    Barred s index raw locks :=
  fun _ found => .inr (by simp [← refers.unique found, locked])

inductive Moved (s : Setting) (index : Nat) (c : Coordinate) (raw wanted : String) (run : Run) :
    Run → Prop
  | literal {later : Run} : raw = wanted → Barred s index raw run.locks →
      later.locks = run.locks → later.changes = run.changes → Moved s index c raw wanted run later
  | replaced {later : Run} : Barred s index raw run.locks → later.locks = run.locks →
      later.changes = run.changes.insert (.overrideVersion index c raw wanted) →
      Moved s index c raw wanted run later
  | standing {r : Resolution} : Refers s index raw r → r.value = wanted →
      r.site.outside = true ∨
        (∃ lock, run.locks.get? r.site = some lock ∧ lock.value ≠ wanted) →
      Moved s index c raw wanted run run
  | agreed {r : Resolution} {lock : Lock} : Refers s index raw r → r.site.outside = false →
      run.locks.get? r.site = some lock → lock.value = wanted →
      Moved s index c raw wanted run run
  | locked {r : Resolution} {later : Run} : Refers s index raw r → r.site.outside = false →
      run.locks.get? r.site = none →
      later.locks = run.locks.lock r.site ⟨wanted, .override⟩ →
      r.value = wanted ∧ later.changes = run.changes ∨
        r.value ≠ wanted ∧ later.changes = run.changes.insert (propertyWrite r.site wanted) →
      Moved s index c raw wanted run later

theorem resolution?_cases (s : Setting) (index : Nat) (c : Coordinate) (raw : String) (run : Run) :
    (∃ start, start.locks = run.locks ∧ start.changes = run.changes ∧
      start.overridden = run.overridden ∧ Barred s index raw run.locks ∧
      resolution? s index c raw run = (start, none)) ∨
    ∃ r, Refers s index raw r ∧ resolution? s index c raw run = (run, some r) := by
  unfold resolution?
  split
  · next plain =>
    refine .inl ⟨run, rfl, rfl, rfl, fun r refers => ?_, rfl⟩
    obtain ⟨name, named, -⟩ := refers.named
    simp [plain] at named
  · next name named =>
    split
    · next place =>
      refine .inl ⟨run, rfl, rfl, rfl, fun r refers => ?_, rfl⟩
      have apart := refers.apart
      simp [place] at apart
    · next place =>
      split
      · next found resolved =>
        cases found with
        | none =>
          exact .inl ⟨run, rfl, rfl, rfl, barred_of_unresolved named (by simp [resolved]) _, rfl⟩
        | some r => exact .inr ⟨r, ⟨by simpa using place, name, named, resolved⟩, rfl⟩
      · next error resolved =>
        exact .inl ⟨run.warn ⟨index, c, some name, error.message⟩, rfl, rfl, rfl,
          barred_of_unresolved named (by simp [resolved]) _, rfl⟩

theorem inPlace_overridden (run : Run) (index : Nat) (c : Coordinate)
    (raw current wanted : String) :
    (inPlace run index c raw current wanted).overridden = run.overridden := by
  unfold inPlace
  split <;> rfl

theorem version_moved (s : Setting) (index : Nat) (c : Coordinate) (raw wanted : String)
    (run : Run) : Moved s index c raw wanted run (version s index c raw wanted run) := by
  rcases resolution?_cases s index c raw run with ⟨start, locks, changes, -, barred, found⟩ |
    ⟨⟨site, current⟩, refers, found⟩
  · simp only [version, found, inPlace]
    split
    · next same => exact .literal same barred locks changes
    · exact .replaced barred locks (changes ▸ rfl)
  · simp only [version, found, inPlace]
    split
    · next outside =>
      split
      · next same => exact .standing refers same (.inl outside)
      · exact .replaced (barred_of_outside refers outside _) rfl rfl
    · next outside =>
      have inside : site.outside = false := by simpa using outside
      have write : Change.setProperty site.owner site.name wanted = propertyWrite site wanted := by
        simp [propertyWrite, inside]
      split
      · next free =>
        rw [write]
        split
        · next same => exact .locked refers inside free rfl (.inl ⟨same, rfl⟩)
        · next other => exact .locked refers inside free rfl (.inr ⟨other, rfl⟩)
      · next lock found =>
        split
        · next same => exact .agreed refers inside found same
        · next other =>
          split
          · next same => exact .standing refers same (.inr ⟨lock, found, other⟩)
          · exact .replaced (barred_of_locked refers found) rfl rfl

theorem declaration_moved (s : Setting) (index : Nat) (run : Run) (d : Declaration) :
    declaration s index run d = run ∨ ∃ raw wanted, Asks s d raw wanted ∧
      (index, d.coordinate) ∉ run.overridden ∧
      Moved s index d.coordinate raw wanted (run.settle index d.coordinate)
        (declaration s index run d) := by
  rcases declaration_cases s index run d with idle | ⟨raw, wanted, asks, free, moves⟩
  · exact .inl idle
  · exact .inr ⟨raw, wanted, asks, free, moves ▸ version_moved ..⟩

theorem version_overridden (s : Setting) (index : Nat) (c : Coordinate) (raw wanted : String)
    (run : Run) : (version s index c raw wanted run).overridden = run.overridden := by
  rcases resolution?_cases s index c raw run with ⟨start, -, -, same, -, found⟩ |
    ⟨⟨site, current⟩, -, found⟩
  · simp only [version, found, inPlace_overridden, same]
  · simp only [version, found]
    split
    · exact inPlace_overridden ..
    · split
      · split <;> rfl
      · split
        · rfl
        · exact inPlace_overridden ..

section

variable (s : Setting) (index : Nat) (run : Run)

theorem property_findings (m : Module) (entry : String × String) :
    (property s m index run entry).findings = run.findings := by
  unfold property
  dsimp only
  split
  · rfl
  · split
    · rfl
    · split <;> rfl

theorem inPlace_findings (c : Coordinate) (raw current wanted : String) :
    (inPlace run index c raw current wanted).findings = run.findings := by
  unfold inPlace
  split <;> rfl

theorem resolution?_findings (c : Coordinate) (raw : String) :
    (resolution? s index c raw run).1.findings = run.findings := by
  unfold resolution?
  split
  · rfl
  · split
    · rfl
    · split <;> rfl

theorem declaration_findings (d : Declaration) :
    (declaration s index run d).findings = run.findings := by
  rcases declaration_cases s index run d with idle | ⟨raw, wanted, -, -, moves⟩
  · rw [idle]
  · have start := resolution?_findings s index (run.settle index d.coordinate) d.coordinate raw
    rw [moves]
    unfold version
    split
    · next found =>
      rw [found] at start
      exact (inPlace_findings ..).trans start
    · next found =>
      rw [found] at start
      split
      · exact (inPlace_findings ..).trans start
      · split
        · split <;> exact start
        · split
          · exact start
          · exact (inPlace_findings ..).trans start

end

end Override

end VersionAlignment
