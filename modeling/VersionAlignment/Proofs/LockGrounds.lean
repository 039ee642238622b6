import VersionAlignment.Proofs.ChangedProject
import VersionAlignment.Proofs.RunInduction

set_option autoImplicit false

namespace VersionAlignment

open Property

def Setting.Overrides (s : Setting) (spot : Spot Nat) : Prop :=
  ∃ m, s.project.module? spot.owner = some m ∧ s.policy.ignoresModule m = false ∧
    (m.property? spot.name).isSome ∧ (s.policy.propertyOverride? spot.name).isSome

inductive Setting.Offers (s : Setting) (site : Site) (current : String) : Prop
  | overridden {m : Module} : site.outside = false → s.Overrides site.spot →
      s.project.module? site.owner = some m → m.property? site.name = some current →
      Offers s site current
  | resolved : s.resolve site.owner site.name = .ok (some ⟨site, current⟩) → Offers s site current

theorem Setting.Offers.bound {s : Setting} {site : Site} {current : String}
    (offers : s.Offers site current) (inside : site.outside = false) :
    ∃ m, s.project.module? site.owner = some m ∧ m.property? site.name = some current := by
  cases offers with
  | overridden _ _ present bound => exact ⟨_, present, bound⟩
  | resolved found => exact (ends_of_resolve found).bound inside

namespace Run

def Grounded (s : Setting) (run : Run) : Prop :=
  ∀ site lock, run.locks.get? site = some lock → ∃ current, s.Offers site current ∧
    (lock.value = current ∨ propertyWrite site lock.value ∈ run.changes.changes)

variable {s : Setting} {run later : Run}

theorem grounded_empty (s : Setting) : Grounded s {} := by
  intro site lock locked
  simp [Locks.get?] at locked

theorem Grounded.of_commits (grounded : Grounded s run) (commits : Commits s run later)
    (same : later.locks = run.locks) : Grounded s later := by
  intro site lock locked
  obtain ⟨current, offers, held⟩ := grounded site lock (same ▸ locked)
  exact ⟨current, offers, held.imp_right commits.changes_stay⟩

theorem Grounded.lock (grounded : Grounded s run) (commits : Commits s run later) {site : Site}
    {new : Lock} (free : run.locks.get? site = none) (locks : later.locks = run.locks.lock site new)
    {current : String} (offers : s.Offers site current)
    (held : new.value = current ∨ propertyWrite site new.value ∈ later.changes.changes) :
    Grounded s later := by
  intro other lock locked
  rw [locks, Locks.get?_lock] at locked
  split at locked
  · next here =>
    simp only [free, Option.getD_none, Option.some.injEq] at locked
    exact here ▸ locked ▸ ⟨current, offers, held⟩
  · obtain ⟨current, offers, held⟩ := grounded other lock locked
    exact ⟨current, offers, held.imp_right commits.changes_stay⟩

theorem Grounded.property {m : Module} {index : Nat} {name current : String}
    (heeds : s.Heeds index m) (own : m.property? name = some current) (grounded : Grounded s run) :
    Grounded s (Override.property s m index run (name, current)) := by
  obtain ⟨_, _, split, -⟩ := List.lookup_eq_some_iff.1 own
  have commits := property_commits heeds.present
    (by simp [split] : (name, current) ∈ m.properties) run
  have bound := Override.property_bound s m index run name current
  generalize Override.property s m index run (name, current) = later at bound commits
  cases bound with
  | idle => exact grounded
  | @lock value _ forced free locks changes =>
    have overrides : s.Overrides ⟨index, name⟩ :=
      ⟨m, heeds.present, heeds.heeded, by simp [own], by simp [forced]⟩
    refine grounded.lock commits free locks (.overridden rfl overrides heeds.present own) ?_
    rcases changes with ⟨same, -⟩ | ⟨-, written⟩
    · exact .inl same.symm
    · exact .inr (written ▸ ChangeSet.mem_insert.2 (.inr rfl))

theorem Grounded.dependency (grounded : Grounded s run) (index : Nat) (d : Declaration) :
    Grounded s (Override.declaration s index run d) := by
  have commits := dependency_commits s index run d
  have moved := Override.declaration_moved s index run d
  generalize Override.declaration s index run d = later at moved commits
  rcases moved with rfl | ⟨raw, wanted, -, -, moved⟩
  · exact grounded
  · have settled : Grounded s (run.settle index d.coordinate) := grounded
    cases moved with
    | literal _ _ locks | replaced _ locks => exact grounded.of_commits commits locks
    | standing | agreed => exact settled
    | @locked r _ refers _ free locks changes =>
      obtain ⟨name, -, found⟩ := refers.named
      refine grounded.lock commits free locks (.resolved (resolve_site found)) ?_
      rcases changes with ⟨same, -⟩ | ⟨-, written⟩
      · exact .inl same.symm
      · exact .inr (written ▸ ChangeSet.mem_insert.2 (.inr rfl))

theorem Grounded.alignDeclaration (grounded : Grounded s run) (index : Nat) (d : Declaration) :
    Grounded s (alignDeclaration s index run d) := by
  have commits := alignDeclaration_commits s index run d
  unfold Run.alignDeclaration at commits ⊢
  split
  · exact grounded
  · next raw version =>
    simp only [version] at commits
    have locks := carryOut_locks run s index d.coordinate raw (judge s run index d raw)
    cases locked : (judge s run index d raw).lock? with
    | none => exact grounded.of_commits commits (by rw [locks, locked])
    | some entry =>
      obtain ⟨site, value⟩ := entry
      rw [locked] at locks
      obtain ⟨current, found, held⟩ := resolve_of_lock? locked
      exact grounded.lock commits (lock?_judge locked).free locks (.resolved found) held

theorem grounded_declared (s : Setting) : Grounded s (declared s) :=
  declared_induction (grounded_empty s)
    (fun _ _ _ _ _ heeds own grounded => grounded.property heeds own)
    (fun _ index _ d _ _ grounded => grounded.dependency index d)
    (fun _ _ grounded => grounded)
    (fun _ index _ d _ _ _ grounded => grounded.alignDeclaration index d)

theorem Grounded.property?_changed (grounded : Grounded s run) (consistent : Consistent s run)
    {site : Site} {lock : Lock} (inside : site.outside = false)
    (locked : run.locks.get? site = some lock) :
    ∃ n, (s.project.applyAll run.changes.changes).module? site.owner = some n ∧
      n.property? site.name = some lock.value := by
  obtain ⟨current, offers, held⟩ := grounded site lock locked
  obtain ⟨m, present, own⟩ := offers.bound inside
  refine ⟨m.revised site.owner run.changes.changes, ?_, ?_⟩
  · simp [Project.module?_revised, present]
  · have here : (⟨site.owner, site.name⟩ : Spot Nat) = site.spot := rfl
    rw [Module.property?_revised, own, here]
    cases bound : boundBy run.changes.changes site.spot with
    | some value => simp [consistent.eq_of_boundBy locked bound]
    | none =>
      rcases held with same | written
      · simp [same]
      · exact absurd written (unwritten_of_boundBy bound)

theorem Grounded.unbound_of_go (grounded : Grounded s run) (consistent : Consistent s run)
    {spot next : Spot Nat} (go : insideMove s.project spot = .go next) (free : ¬ s.Overrides spot) :
    boundBy run.changes.changes spot = none := by
  cases bound : boundBy run.changes.changes spot with
  | none => rfl
  | some value =>
    obtain ⟨site, rfl, written⟩ := mem_of_boundBy bound
    obtain ⟨lock, locked, -⟩ := consistent.written site value written
    obtain ⟨current, offers, -⟩ := grounded site lock locked
    cases offers with
    | overridden _ overrides => exact absurd overrides free
    | resolved found =>
      obtain ⟨owner, name, outside⟩ := site
      cases ends_of_resolve found with
      | inside stop | outside stop => cases go.symm.trans stop

end Run

end VersionAlignment
