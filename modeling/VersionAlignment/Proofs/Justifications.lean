import VersionAlignment.Proofs.Additions
import VersionAlignment.Proofs.Gaps
import VersionAlignment.Proofs.ManifestChannel
import VersionAlignment.Proofs.RunInduction

set_option autoImplicit false

namespace VersionAlignment

open Property

theorem Setting.ne_of_isMove {s : Setting} [Std.ReflCmp s.given.order] {old new : String}
    (move : s.isMove old new = true) : old ≠ new := by
  rintro rfl
  simp [isMove, Version.isMove, Std.ReflCmp.compare_self] at move

def Setting.Reads (s : Setting) (d : Declaration) (r : Resolution) : Prop :=
  ∃ index m raw name, s.Heeds index m ∧ d ∈ m.declarations ∧ d.version = some raw ∧
    Written.read s index raw = .reference name (.ok (some r))

structure Setting.Directs (s : Setting) (d : Declaration) (current target : String) : Prop where
  foreign : s.project.owns d.coordinate = false
  unforced : s.policy.dependencyOverride? d.coordinate = none
  heeded : s.policy.ignores? d.coordinate d.effectiveScope = none
  covered : s.given.channel d.coordinate current = some target

inductive Setting.Justifies (s : Setting) : Change → Prop
  | asked {index : Nat} {m : Module} {d : Declaration} {old new : String} :
    s.Heeds index m → d ∈ m.declarations → Override.Asks s d old new →
      Justifies s (.overrideVersion index d.coordinate old new)
  | aligned {index : Nat} {m : Module} {d : Declaration} {old current new : String} :
    s.Heeds index m → d ∈ m.declarations → d.version = some old →
      (Written.read s index old).current? = some current → s.Directs d current new →
      Justifies s (.overrideVersion index d.coordinate old new)
  | forced {owner : Nat} {m : Module} {name current value : String} :
    s.Heeds owner m → m.property? name = some current → current ≠ value →
      s.policy.propertyOverride? name = some value → Justifies s (.setProperty owner name value)
  | through {owner : Nat} {m : Module} {name raw current value : String} {d : Declaration} :
    s.project.module? owner = some m → m.property? name = some current → current ≠ value →
      s.Reads d ⟨⟨owner, name, false⟩, current⟩ → Override.Asks s d raw value →
      Justifies s (.setProperty owner name value)
  | written {owner : Nat} {m : Module} {name current value : String} {d : Declaration} :
    s.project.module? owner = some m → m.property? name = some current → current ≠ value →
      s.Reads d ⟨⟨owner, name, false⟩, current⟩ → s.Directs d current value →
      Justifies s (.setProperty owner name value)
  | injected {owner : Nat} {m : Module} {parent : Artifact} {name current value : String}
      {d : Declaration} :
    s.options.injectExternalProperties = true → s.project.module? owner = some m →
      m.parent = some (.outside parent) → m.property? name = none →
      s.Reads d ⟨⟨owner, name, true⟩, current⟩ → s.Directs d current value →
      Justifies s (.injectProperty owner name value)

namespace Run

variable {s : Setting} {run : Run} {index : Nat} {m : Module} {d : Declaration} {change : Change}

theorem Adds.justified_of_property {name current : String} (heeds : s.Heeds index m)
    (own : m.property? name = some current)
    (adds : Adds s run (.property m index (name, current)) change) : s.Justifies change := by
  cases adds with
  | forced forced other => exact .forced heeds own other forced

theorem Adds.justified_of_dependency (heeds : s.Heeds index m) (declares : d ∈ m.declarations)
    (adds : Adds s run (.dependency index d) change) : s.Justifies change := by
  cases adds with
  | replaced asks => exact .asked heeds declares asks
  | @through _ _ raw wanted r asks refers inside other =>
    obtain ⟨⟨owner, name, outside⟩, current⟩ := r
    cases inside
    obtain ⟨text, named, resolved⟩ := refers.named
    obtain ⟨m, present, bound⟩ := (ends_of_resolve resolved).bound rfl
    exact .through present bound other
      ⟨index, _, raw, text, heeds, declares, asks.version, by simp [Written.read, named, resolved]⟩
      asks

theorem directs_of_live {raw current target : String} (live : Live s run index d raw target)
    (settled : ∀ raw wanted, Override.Asks s d raw wanted → (index, d.coordinate) ∈ run.overridden)
    (version : d.version = some raw) (read : (Written.read s index raw).current? = some current) :
    s.Directs d current target where
  foreign := live.foreign
  unforced := Option.eq_none_iff_forall_ne_some.2 fun wanted forced =>
    live.free (settled raw wanted ⟨version, forced, live.foreign⟩)
  heeded := live.heeded
  covered := by simpa [read] using live.covered

theorem reads_of_written [Std.ReflCmp s.given.order] (site : Site) {raw value : String}
    (heeds : s.Heeds index m) (declares : d ∈ m.declarations)
    (settled : ∀ raw wanted, Override.Asks s d raw wanted → (index, d.coordinate) ∈ run.overridden)
    (version : d.version = some raw)
    (decided : (judge s run index d raw).change? index d.coordinate raw =
      some (propertyWrite site value)) :
    (site.outside = true → s.options.injectExternalProperties = true) ∧
      ∃ current, s.resolve site.owner site.name = .ok (some ⟨site, current⟩) ∧
        current ≠ value ∧ s.Reads d ⟨site, current⟩ ∧ s.Directs d current value := by
  obtain ⟨live, written⟩ := written_of_judge decided
  obtain ⟨name, current, read, move⟩ := written.refers
  have stands : (Written.read s index raw).current? = some current := by
    rw [read]
    rfl
  exact ⟨written.injects, current, resolve_site (Written.resolve_of_read read),
    s.ne_of_isMove move, ⟨index, m, raw, name, heeds, declares, version, read⟩,
    directs_of_live live settled version stands⟩

theorem Adds.justified_of_declaration [Std.ReflCmp s.given.order] (heeds : s.Heeds index m)
    (declares : d ∈ m.declarations)
    (settled : ∀ raw wanted, Override.Asks s d raw wanted → (index, d.coordinate) ∈ run.overridden)
    (adds : Adds s run (.declaration index d) change) : s.Justifies change := by
  cases adds with
  | @judged _ _ raw _ version decided =>
    cases change with
    | overrideVersion owner c old new =>
      obtain ⟨rfl, rfl, rfl⟩ := Verdict.replaces_own decided
      obtain ⟨live, replaced⟩ := replaced_of_judge decided
      obtain ⟨current, read⟩ := replaced.exists_current?
      exact .aligned heeds declares version read (directs_of_live live settled version read)
    | setProperty owner name value =>
      obtain ⟨-, current, resolved, other, reads, directs⟩ :=
        reads_of_written ⟨owner, name, false⟩ heeds declares settled version decided
      obtain ⟨m, present, bound⟩ := (ends_of_resolve resolved).bound rfl
      exact .written present bound other reads directs
    | injectProperty owner name value =>
      obtain ⟨inject, current, resolved, -, reads, directs⟩ :=
        reads_of_written ⟨owner, name, true⟩ heeds declares settled version decided
      obtain ⟨m, parent, present, unbound, above⟩ := (ends_of_resolve resolved).unbound rfl
      exact .injected (inject rfl) present above unbound reads directs
    | manage => exact (Verdict.sanctions_judge decided).elim

theorem changes_justified (s : Setting) [Std.ReflCmp s.given.order] :
    ∀ change ∈ (declared s).changes.changes, s.Justifies change := by
  refine declared_induction (motive := fun run => ∀ change ∈ run.changes.changes,
    s.Justifies change) (by simp) ?_ ?_ ?_ ?_
  · intro run index m name current heeds own held change member
    have adds : _ ∨ Adds s run (.property m index (name, current)) change := adds_of_step member
    exact adds.elim (held change) (·.justified_of_property heeds own)
  · intro run index m d heeds declares held change member
    exact (adds_of_dependency member).elim (held change) (·.justified_of_dependency heeds declares)
  · exact fun _ _ held => held
  · intro run index m d heeds declares settled held change member
    have adds : _ ∨ Adds s run (.declaration index d) change := adds_of_step member
    exact adds.elim (held change) (·.justified_of_declaration heeds declares settled)

theorem changes_justified_twoReaders :
    let s := twoVersions.setting twoReaders .alone {}
    let codec : Coordinate := ⟨"io.netty", "netty-codec", "jar", none⟩
    s.Justifies (.setProperty 0 "netty" "2.0") ∧
      s.Justifies (.overrideVersion 1 codec "$\x7bnetty\x7d" "2.1") := by
  intro s codec
  have : Std.ReflCmp s.given.order := inferInstanceAs (Std.ReflCmp Version.compare)
  exact ⟨changes_justified s _ (by decide +kernel), changes_justified s _ (by decide +kernel)⟩

end Run

end VersionAlignment
