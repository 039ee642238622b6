import VersionAlignment.Proofs.OverrideSteps
import VersionAlignment.Proofs.Rebinding

set_option autoImplicit false

namespace VersionAlignment

open Property

/-- A site is where a write to its property goes: a module that binds the property, or one that does
not, below a parent outside of the project. -/
def Project.HasSite (p : Project) (site : Site) : Prop :=
  ∃ m, p.module? site.owner = some m ∧ (m.property? site.name).isNone = site.outside

theorem Property.Ends.hasSite {p : Project}
    {outside : Artifact → String → Except PropertyError (Option String)} {r : Resolution}
    (ends : Ends p outside r) : p.HasSite r.site := by
  cases place : r.site.outside with
  | false =>
    obtain ⟨m, inside, bound⟩ := ends.bound place
    exact ⟨m, inside, by simp [bound, place]⟩
  | true =>
    obtain ⟨m, _, inside, unbound, -⟩ := ends.unbound place
    exact ⟨m, inside, by simp [unbound, place]⟩

theorem Project.HasSite.eq_of_spot {p : Project} {a b : Site} (first : p.HasSite a)
    (second : p.HasSite b) (same : a.spot = b.spot) : a = b := by
  obtain ⟨m, inside, outside⟩ := first
  obtain ⟨n, inside', outside'⟩ := second
  obtain ⟨owner, name⟩ : a.owner = b.owner ∧ a.name = b.name := by simpa [Site.spot] using same
  rw [owner, inside', Option.some.injEq] at inside
  exact Site.ext_spot same (by rw [← outside, ← outside', inside, name])

def Change.bound? (spot : Spot Nat) : Change → Option String
  | .setProperty owner name value => if (⟨owner, name⟩ : Spot Nat) = spot then some value else none
  | .injectProperty owner name value =>
    if (⟨owner, name⟩ : Spot Nat) = spot then some value else none
  | _ => none

theorem Change.bound?_eq_some {spot : Spot Nat} {change : Change} {value : String} :
    change.bound? spot = some value ↔
      ∃ site, site.spot = spot ∧ change = propertyWrite site value := by
  constructor
  · intro bound
    cases change with
    | setProperty owner name v =>
      have here : (⟨owner, name⟩ : Spot Nat) = spot ∧ v = value := by simpa [bound?] using bound
      exact ⟨⟨owner, name, false⟩, here.1, by rw [← here.2]; rfl⟩
    | injectProperty owner name v =>
      have here : (⟨owner, name⟩ : Spot Nat) = spot ∧ v = value := by simpa [bound?] using bound
      exact ⟨⟨owner, name, true⟩, here.1, by rw [← here.2]; rfl⟩
    | overrideVersion | manage => cases bound
  · rintro ⟨⟨owner, name, _ | _⟩, rfl, rfl⟩ <;> simp [bound?, propertyWrite, Site.spot]

def Policy.Forces (policy : Policy) (name value : String) : Prop :=
  policy.propertyOverride? name = some value ∨ ∃ c, policy.dependencyOverride? c = some value

namespace Verdict

theorem lock?_ofInline (s : Setting) (current target : String) :
    (ofInline s current target).lock? = none := by
  unfold ofInline
  split <;> rfl

theorem lock?_ofLocked (s : Setting) (site : Site) (lock : Lock) (target : String) :
    (ofLocked s site lock target).lock? = none := by
  unfold ofLocked
  split
  · rfl
  · split
    · rfl
    · split <;> rfl

theorem change?_of_lock? {v : Verdict} {site : Site} {value : String} (index : Nat)
    (c : Coordinate) (raw : String) (locks : v.lock? = some (site, value)) :
    v.change? index c raw = none ∨ v.change? index c raw = some (propertyWrite site value) := by
  cases v <;> simp_all [lock?, change?]

theorem change?_of_lock?_eq_none {v : Verdict} (index : Nat) (c : Coordinate) (raw : String)
    (free : v.lock? = none) : v.change? index c raw = none ∨
      ∃ target, v.change? index c raw = some (.overrideVersion index c raw target) := by
  cases v <;> simp_all [lock?, change?]

end Verdict

theorem lock?_ofUnlocked {s : Setting} {site other : Site} {current target value : String}
    (locked : (Verdict.ofUnlocked s site current target).lock? = some (other, value)) :
    other = site ∧ (value = current ∨ Verdict.ofUnlocked s site current target =
      .write site value ∧ (site.outside = true → s.options.injectExternalProperties = true)) := by
  unfold Verdict.ofUnlocked at locked ⊢
  split at locked
  · simp_all [Verdict.lock?]
  · split at locked
    · simp_all [Verdict.lock?]
    · next move inject =>
      simp only [Verdict.lock?, Option.some.injEq, Prod.mk.injEq] at locked
      obtain ⟨rfl, rfl⟩ := locked
      exact ⟨rfl, .inr ⟨by simp [move, inject], by simpa using inject⟩⟩

structure Locking (s : Setting) (locks : Locks) (written : Written) (v : Verdict) (site : Site)
    (value : String) : Prop where
  free : locks.get? site = none
  apart : s.options.inlineVersions = false
  referred : ∃ name r, written = .reference name (.ok (some r)) ∧ r.site = site ∧
    (value = r.value ∨
      v = .write site value ∧ (site.outside = true → s.options.injectExternalProperties = true))

theorem lock?_ofTarget {s : Setting} {locks : Locks} {target value : String} {written : Written}
    {site : Site} (locked : (Verdict.ofTarget s locks target written).lock? = some (site, value)) :
    Locking s locks written (Verdict.ofTarget s locks target written) site value := by
  have targeted := ofTarget_targeted s locks target written
  generalize Verdict.ofTarget s locks target written = v at targeted locked
  cases targeted with
  | inPlace => simp [Verdict.lock?_ofInline] at locked
  | unresolved | unresolvedIgnored | ignored => cases locked
  | locked => simp [Verdict.lock?_ofLocked] at locked
  | @unlocked name r apart _ _ free =>
    obtain ⟨rfl, source⟩ := lock?_ofUnlocked locked
    exact ⟨free, apart, name, r, rfl, rfl, source⟩

theorem lock?_judge {s : Setting} {run : Run} {index : Nat} {d : Declaration} {raw value : String}
    {site : Site} (locked : (judge s run index d raw).lock? = some (site, value)) :
    Locking s run.locks (Written.read s index raw) (judge s run index d raw) site value := by
  have judged := judge_judged s run index d raw
  generalize judge s run index d raw = v at judged locked
  cases judged with
  | exempt | ignored | silent | uncovered => cases locked
  | live => exact lock?_ofTarget locked

theorem Written.reference_of_read {s : Setting} {index : Nat} {raw name : String}
    {found : Except PropertyError (Option Resolution)}
    (read : Written.read s index raw = .reference name found) :
    reference? raw = some name ∧ s.resolve index name = found := by
  unfold Written.read at read
  split at read
  · cases read
  · next named =>
    cases read
    exact ⟨named, rfl⟩

theorem Written.resolve_of_read {s : Setting} {index : Nat} {raw name : String}
    {found : Except PropertyError (Option Resolution)}
    (read : Written.read s index raw = .reference name found) : s.resolve index name = found :=
  (reference_of_read read).2

inductive Run.Commits (s : Setting) (run later : Run) : Prop
  | nothing : later.locks = run.locks → later.changes = run.changes → Commits s run later
  | inline {index : Nat} {c : Coordinate} {old new : String} : later.locks = run.locks →
      later.changes = run.changes.insert (.overrideVersion index c old new) → Commits s run later
  | lock {site : Site} {lock : Lock} : run.locks.get? site = none → s.project.HasSite site →
      (lock.origin = .override → s.policy.Forces site.name lock.value) →
      later.locks = run.locks.lock site lock →
      later.changes = run.changes ∨
        later.changes = run.changes.insert (propertyWrite site lock.value) →
      Commits s run later

namespace Run

theorem judged_commits (s : Setting) (run : Run) (index : Nat) (d : Declaration) (raw : String) :
    Commits s run (run.carryOut s index d.coordinate raw (judge s run index d raw)) := by
  have locks := carryOut_locks run s index d.coordinate raw (judge s run index d raw)
  have changes := carryOut_changes run s index d.coordinate raw (judge s run index d raw)
  cases locked : (judge s run index d raw).lock? with
  | none =>
    rw [locked] at locks
    rcases Verdict.change?_of_lock?_eq_none index d.coordinate raw locked with none | ⟨_, some⟩
    · exact .nothing locks (by rw [changes, none])
    · exact .inline locks (by rw [changes, some])
  | some entry =>
    obtain ⟨site, value⟩ := entry
    rw [locked] at locks
    obtain ⟨free, -, name, r, read, rfl, -⟩ := lock?_judge locked
    have placed := (ends_of_resolve (Written.resolve_of_read read)).hasSite
    refine .lock free placed (by simp) locks ?_
    rcases Verdict.change?_of_lock? index d.coordinate raw locked with none | some
    · exact .inl (by rw [changes, none])
    · exact .inr (by rw [changes, some])

theorem resolve_of_lock? {s : Setting} {run : Run} {index : Nat} {d : Declaration}
    {raw value : String} {site : Site}
    (locked : (judge s run index d raw).lock? = some (site, value)) :
    ∃ current, s.resolve site.owner site.name = .ok (some ⟨site, current⟩) ∧
      (value = current ∨ propertyWrite site value ∈
        (run.carryOut s index d.coordinate raw (judge s run index d raw)).changes.changes) := by
  obtain ⟨-, -, name, r, read, rfl, source⟩ := lock?_judge locked
  refine ⟨r.value, resolve_site (Written.resolve_of_read read), source.imp_right fun write => ?_⟩
  rw [carryOut_changes, write.1]
  exact ChangeSet.mem_insert.2 (.inr rfl)

theorem alignDeclaration_commits (s : Setting) (index : Nat) (run : Run) (d : Declaration) :
    Commits s run (alignDeclaration s index run d) := by
  unfold alignDeclaration
  split
  · exact .nothing rfl rfl
  · exact judged_commits s run index d _

theorem property_commits {s : Setting} {m : Module} {index : Nat} {entry : String × String}
    (inside : s.project.module? index = some m) (bound : entry ∈ m.properties) (run : Run) :
    Commits s run (Override.property s m index run entry) := by
  obtain ⟨name, current⟩ := entry
  have placed : s.project.HasSite ⟨index, name, false⟩ := by
    refine ⟨m, inside, ?_⟩
    cases value : m.property? name with
    | some value => rfl
    | none =>
      have missing := List.lookup_eq_none_iff.1 value (name, current) bound
      simp at missing
  have bound := Override.property_bound s m index run name current
  generalize Override.property s m index run (name, current) = later at bound
  cases bound with
  | idle => exact .nothing rfl rfl
  | lock forced free locks changes =>
    exact .lock free placed (fun _ => .inl forced) locks (changes.imp And.right And.right)

theorem version_commits {s : Setting} {c : Coordinate} {wanted : String}
    (forced : s.policy.dependencyOverride? c = some wanted) (index : Nat) (raw : String)
    (run : Run) : Commits s run (Override.version s index c raw wanted run) := by
  have moved := Override.version_moved s index c raw wanted run
  generalize Override.version s index c raw wanted run = later at moved
  cases moved with
  | literal _ _ locks changes => exact .nothing locks changes
  | replaced _ locks changes => exact .inline locks changes
  | standing | agreed => exact .nothing rfl rfl
  | locked refers _ free locks changes =>
    obtain ⟨name, -, resolved⟩ := refers.named
    exact .lock free (ends_of_resolve resolved).hasSite (fun _ => .inr ⟨c, forced⟩) locks
      (changes.imp And.right And.right)

theorem dependency_commits (s : Setting) (index : Nat) (run : Run) (d : Declaration) :
    Commits s run (Override.declaration s index run d) := by
  rcases Override.declaration_cases s index run d with idle | ⟨raw, wanted, asks, -, moves⟩
  · exact .nothing (by rw [idle]) (by rw [idle])
  · rw [moves]
    cases version_commits asks.wanted index raw (run.settle index d.coordinate) with
    | nothing locks changes => exact .nothing locks changes
    | inline locks changes => exact .inline locks changes
    | lock free placed forced locks changes => exact .lock free placed forced locks changes

theorem step_commits {s : Setting} {step : Step} (member : step ∈ steps s) (run : Run) :
    Commits s run (step.perform s run) := by
  cases step with
  | property m index entry =>
    obtain ⟨inside, -, bound⟩ := property_mem_steps.1 member
    exact property_commits inside bound run
  | dependency index d => exact dependency_commits s index run d
  | note message => exact .nothing rfl rfl
  | declaration index d => exact alignDeclaration_commits s index run d

theorem Commits.locks_stay {s : Setting} {run later : Run} (commits : Commits s run later)
    {site : Site} {lock : Lock} (locked : run.locks.get? site = some lock) :
    later.locks.get? site = some lock := by
  cases commits with
  | nothing locks | inline locks => rw [locks, locked]
  | @lock other new free _ _ locks =>
    have different : site ≠ other := by
      rintro rfl
      simp [free] at locked
    simpa [locks, Locks.get?_lock, different] using locked

theorem Commits.changes_stay {s : Setting} {run later : Run} (commits : Commits s run later)
    {change : Change} (present : change ∈ run.changes.changes) :
    change ∈ later.changes.changes := by
  cases commits with
  | nothing _ changes => rwa [changes]
  | inline _ changes => exact changes ▸ ChangeSet.mem_insert.2 (.inl present)
  | lock _ _ _ _ changes =>
    rcases changes with same | pushed
    · rwa [same]
    · exact pushed ▸ ChangeSet.mem_insert.2 (.inl present)

structure Consistent (s : Setting) (run : Run) : Prop where
  nodup : run.changes.changes.Nodup
  placed : ∀ site lock, run.locks.get? site = some lock → s.project.HasSite site
  forced : ∀ site lock, run.locks.get? site = some lock → lock.origin = .override →
    s.policy.Forces site.name lock.value
  written : ∀ site value, propertyWrite site value ∈ run.changes.changes →
    ∃ lock, run.locks.get? site = some lock ∧ lock.value = value

theorem consistent_empty (s : Setting) : Consistent s {} where
  nodup := List.nodup_nil
  placed := by simp [Locks.get?]
  forced := by simp [Locks.get?]
  written := by simp

theorem Consistent.of_commits {s : Setting} {run later : Run} (consistent : Consistent s run)
    (commits : Commits s run later) : Consistent s later := by
  have old : ∀ site value, propertyWrite site value ∈ run.changes.changes →
      ∃ lock, later.locks.get? site = some lock ∧ lock.value = value := by
    intro site value present
    obtain ⟨lock, locked, same⟩ := consistent.written site value present
    exact ⟨lock, commits.locks_stay locked, same⟩
  cases commits with
  | nothing locks changes =>
    exact ⟨changes ▸ consistent.nodup, locks ▸ consistent.placed, locks ▸ consistent.forced,
      changes ▸ old⟩
  | inline locks changes =>
    refine ⟨changes ▸ ChangeSet.nodup_insert consistent.nodup, locks ▸ consistent.placed,
      locks ▸ consistent.forced, ?_⟩
    intro site value present
    rw [changes, ChangeSet.mem_insert] at present
    rcases present with present | same
    · exact old site value present
    · exact absurd same.symm (overrideVersion_ne_propertyWrite _ _ _ _ _ _)
  | @lock site new free placed forced locks changes =>
    -- A write comes with the lock of its own site, and that site was free.
    have locked : later.locks.get? site = some new := by simp [locks, Locks.get?_lock, free]
    refine ⟨?_, ?_, ?_, ?_⟩
    · rcases changes with same | pushed
      · exact same ▸ consistent.nodup
      · exact pushed ▸ ChangeSet.nodup_insert consistent.nodup
    · intro other lock found
      rw [locks, Locks.get?_lock] at found
      split at found
      · next here => exact here ▸ placed
      · exact consistent.placed other lock found
    · intro other lock found origin
      rw [locks, Locks.get?_lock] at found
      split at found
      · next here =>
        simp only [free, Option.getD_none, Option.some.injEq] at found
        subst here found
        exact forced origin
      · exact consistent.forced other lock found origin
    · intro other value present
      rcases changes with same | pushed
      · exact old other value (same ▸ present)
      · rw [pushed, ChangeSet.mem_insert] at present
        rcases present with present | same
        · exact old other value present
        · obtain ⟨rfl, rfl⟩ := propertyWrite_inj.1 same
          exact ⟨new, locked, rfl⟩

theorem Consistent.write_of_bound? {s : Setting} {run : Run} (consistent : Consistent s run)
    {site : Site} {lock : Lock} {change : Change} {value : String}
    (locked : run.locks.get? site = some lock) (present : change ∈ run.changes.changes)
    (bound : change.bound? site.spot = some value) :
    change = propertyWrite site lock.value := by
  obtain ⟨other, here, rfl⟩ := Change.bound?_eq_some.1 bound
  -- The two sites have the same spot, and whether that lies outside is a matter of the project.
  obtain ⟨lock', locked', rfl⟩ := consistent.written other value present
  have same : other = site :=
    (consistent.placed other lock' locked').eq_of_spot (consistent.placed site lock locked) here
  subst same
  rw [locked, Option.some.injEq] at locked'
  rw [locked']

theorem Consistent.perform {s : Setting} {run : Run} {part : List Step}
    (consistent : Consistent s run) (all : ∀ step ∈ part, step ∈ steps s) :
    Consistent s (run.perform s part) :=
  perform_induction consistent fun run step member consistent =>
    consistent.of_commits (step_commits (all step member) run)

theorem Commits.manages_nothing {s : Setting} {run later : Run} (commits : Commits s run later)
    {owner : Nat} {c : Coordinate} {version former : String} {exclusions : List Exclusion}
    (nothing : .manage owner c version exclusions former ∉ run.changes.changes) :
    .manage owner c version exclusions former ∉ later.changes.changes := by
  cases commits with
  | nothing _ changes => rwa [changes]
  | inline _ changes => simpa [changes, ChangeSet.mem_insert] using nothing
  | lock _ _ _ _ changes =>
    rcases changes with same | pushed
    · rwa [same]
    · rw [pushed, ChangeSet.mem_insert]
      rintro (before | own)
      · exact nothing before
      · unfold propertyWrite at own
        split at own <;> cases own

theorem declared_manages_nothing (s : Setting) (owner : Nat) (c : Coordinate) (version : String)
    (exclusions : List Exclusion) (former : String) :
    .manage owner c version exclusions former ∉ (declared s).changes.changes := by
  rw [← perform_steps]
  exact perform_induction (by simp) fun run step member nothing =>
    (step_commits member run).manages_nothing nothing

theorem consistent_declared (s : Setting) : Consistent s (declared s) := by
  rw [← perform_steps]
  exact (consistent_empty s).perform fun _ member => member

theorem locks_stay {s : Setting} {run : Run} {part : List Step} {site : Site} {lock : Lock}
    (all : ∀ step ∈ part, step ∈ steps s) (locked : run.locks.get? site = some lock) :
    (run.perform s part).locks.get? site = some lock :=
  perform_induction locked fun run step member locked =>
    (step_commits (all step member) run).locks_stay locked

theorem locks_stay_of_all {s : Setting} {site : Site} {lock : Lock}
    (locked : (Override.all s {}).locks.get? site = some lock) :
    (declared s).locks.get? site = some lock := by
  rw [declared_eq]
  exact locks_stay (fun _ member => alignment_mem_steps member) locked

theorem changes_stay {s : Setting} {run : Run} {part : List Step} {change : Change}
    (all : ∀ step ∈ part, step ∈ steps s) (present : change ∈ run.changes.changes) :
    change ∈ (run.perform s part).changes.changes :=
  perform_induction present fun run step member present =>
    (step_commits (all step member) run).changes_stay present

end Run

end VersionAlignment
