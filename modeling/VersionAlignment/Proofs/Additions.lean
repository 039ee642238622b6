import VersionAlignment.Proofs.ChannelRuns

set_option autoImplicit false

namespace VersionAlignment

open Property

theorem Verdict.replaces_own {v : Verdict} {index i : Nat} {c other : Coordinate}
    {raw old new : String}
    (changes : v.change? index c raw = some (.overrideVersion i other old new)) :
    i = index ∧ other = c ∧ old = raw := by
  cases v with
  | inline | inlineBeside =>
    cases changes
    exact ⟨rfl, rfl, rfl⟩
  | write =>
    have write := (Option.some.inj changes).symm
    exact absurd write (overrideVersion_ne_propertyWrite _ _ _ _ _ _)
  | _ => cases changes

theorem Verdict.isMove_of_change? {s : Setting} {site : Site} {current target raw : String}
    {index : Nat} {c : Coordinate} {change : Change}
    (changes : (ofUnlocked s site current target).change? index c raw = some change) :
    s.isMove current target = true := by
  unfold ofUnlocked at changes
  split at changes
  · cases changes
  · next move => simpa using move

structure Written.Writes (s : Setting) (locks : Locks) (site : Site) (target : String)
    (written : Written) : Prop where
  free : locks.get? site = none
  apart : s.options.inlineVersions = false
  injects : site.outside = true → s.options.injectExternalProperties = true
  refers : ∃ name current, written = .reference name (.ok (some ⟨site, current⟩)) ∧
    s.isMove current target = true

theorem written_of_judge {s : Setting} {run : Run} {index : Nat} {d : Declaration}
    {raw value : String} {site : Site}
    (decided : (judge s run index d raw).change? index d.coordinate raw =
      some (propertyWrite site value)) :
    Live s run index d raw value ∧
      (Written.read s index raw).Writes s run.locks site value := by
  have judged := judge_judged s run index d raw
  generalize judge s run index d raw = v at judged decided
  cases judged with
  | exempt | ignored | silent | uncovered => cases decided
  | @live target live =>
    have targeted := ofTarget_targeted s run.locks target (Written.read s index raw)
    generalize Verdict.ofTarget s run.locks target (Written.read s index raw) = v
      at targeted decided
    generalize Written.read s index raw = written at targeted
    cases targeted with
    | inPlace =>
      exact absurd (Verdict.change?_ofInline decided).symm
        (overrideVersion_ne_propertyWrite _ _ _ _ _ _)
    | unresolved | unresolvedIgnored | ignored => cases decided
    | locked =>
      exact absurd (Verdict.change?_ofLocked decided).symm
        (overrideVersion_ne_propertyWrite _ _ _ _ _ _)
    | @unlocked name r apart _ _ free =>
      have move := Verdict.isMove_of_change? decided
      obtain ⟨write, inject⟩ := Verdict.change?_ofUnlocked decided
      obtain ⟨rfl, rfl⟩ := propertyWrite_inj.1 write
      exact ⟨live, free, apart, inject, name, r.value, rfl, move⟩

namespace Run

inductive Adds (s : Setting) (run : Run) : Step → Change → Prop
  | forced {m : Module} {index : Nat} {name current value : String} :
    s.policy.propertyOverride? name = some value → current ≠ value →
      Adds s run (.property m index (name, current)) (propertyWrite ⟨index, name, false⟩ value)
  | replaced {index : Nat} {d : Declaration} {raw wanted : String} :
    Override.Asks s d raw wanted → (index, d.coordinate) ∉ run.overridden →
      Adds s run (.dependency index d) (.overrideVersion index d.coordinate raw wanted)
  | through {index : Nat} {d : Declaration} {raw wanted : String} {r : Resolution} :
    Override.Asks s d raw wanted → Override.Refers s index raw r → r.site.outside = false →
      r.value ≠ wanted → Adds s run (.dependency index d) (propertyWrite r.site wanted)
  | judged {index : Nat} {d : Declaration} {raw : String} {change : Change} :
    d.version = some raw →
      (judge s run index d raw).change? index d.coordinate raw = some change →
      Adds s run (.declaration index d) change

variable {s : Setting} {run : Run} {step : Step} {change : Change}

theorem adds_of_dependency {index : Nat} {d : Declaration}
    (member : change ∈ (Override.declaration s index run d).changes.changes) :
    change ∈ run.changes.changes ∨ Adds s run (.dependency index d) change := by
  have moved := Override.declaration_moved s index run d
  generalize Override.declaration s index run d = later at moved member
  rcases moved with rfl | ⟨raw, wanted, asks, free, moved⟩
  · exact .inl member
  · have before : (run.settle index d.coordinate).changes = run.changes := rfl
    cases moved with
    | literal _ _ _ changes => exact .inl (by rwa [changes, before] at member)
    | replaced _ _ changes =>
      rw [changes, before] at member
      obtain before | rfl := ChangeSet.mem_insert.1 member
      · exact .inl before
      · exact .inr (.replaced asks free)
    | standing | agreed => exact .inl member
    | locked refers inside _ _ changes =>
      rcases changes with ⟨-, same⟩ | ⟨other, pushed⟩
      · exact .inl (by rwa [same, before] at member)
      · rw [pushed, before] at member
        obtain before | rfl := ChangeSet.mem_insert.1 member
        · exact .inl before
        · exact .inr (.through asks refers inside other)

theorem adds_of_step (member : change ∈ (step.perform s run).changes.changes) :
    change ∈ run.changes.changes ∨ Adds s run step change := by
  cases step with
  | property m index entry =>
    obtain ⟨name, current⟩ := entry
    have bound := Override.property_bound s m index run name current
    rw [Step.perform] at member
    generalize Override.property s m index run (name, current) = later at bound member
    cases bound with
    | idle => exact .inl member
    | lock forced _ _ changes =>
      rcases changes with ⟨-, same⟩ | ⟨other, pushed⟩
      · exact .inl (same ▸ member)
      · rw [pushed] at member
        obtain before | rfl := ChangeSet.mem_insert.1 member
        · exact .inl before
        · exact .inr (.forced forced other)
  | dependency index d => exact adds_of_dependency member
  | note => exact .inl member
  | declaration index d =>
    rw [Step.perform] at member
    unfold alignDeclaration at member
    split at member
    · exact .inl member
    · next raw version =>
      exact (mem_carryOut_changes.1 member).imp_right (.judged version)

theorem exists_adds (member : change ∈ (declared s).changes.changes) :
    ∃ front step back, steps s = front ++ step :: back ∧
      Adds s (({} : Run).perform s front) step change := by
  rw [← perform_steps] at member
  obtain ⟨front, step, back, split, before, after⟩ :=
    perform_turn (motive := fun run => change ∈ run.changes.changes) (by simp) member
  exact ⟨front, step, back, split, (adds_of_step after).resolve_left before⟩

theorem Adds.source {site : Site} {value : String}
    (adds : Adds s run step (propertyWrite site value)) :
    s.policy.Forces site.name value ∨ ∃ c current, s.given.channel c current = some value := by
  generalize write : propertyWrite site value = change at adds
  cases adds with
  | forced forced =>
    obtain ⟨rfl, rfl⟩ := propertyWrite_inj.1 write
    exact .inl (.inl forced)
  | replaced => exact absurd write.symm (overrideVersion_ne_propertyWrite _ _ _ _ _ _)
  | through asks =>
    obtain ⟨rfl, rfl⟩ := propertyWrite_inj.1 write
    exact .inl (.inr ⟨_, asks.wanted⟩)
  | judged _ decided =>
    exact .inr (Setting.sanctions_propertyWrite.1 (write ▸ Verdict.sanctions_judge decided)).2

inductive Replaces (s : Setting) (run : Run) (index : Nat) (c : Coordinate) (old new : String) :
    Step → Prop
  | asked {d : Declaration} : d.coordinate = c → Override.Asks s d old new →
      Replaces s run index c old new (.dependency index d)
  | judged {d : Declaration} : d.coordinate = c → d.version = some old →
      (judge s run index d old).change? index c old = some (.overrideVersion index c old new) →
      Replaces s run index c old new (.declaration index d)

theorem Adds.replaces {index : Nat} {c : Coordinate} {old new : String}
    (adds : Adds s run step (.overrideVersion index c old new)) :
    (index, c) ∉ run.overridden ∧ Replaces s run index c old new step := by
  generalize replaced : Change.overrideVersion index c old new = change at adds
  cases adds with
  | forced | through => exact absurd replaced (overrideVersion_ne_propertyWrite _ _ _ _ _ _)
  | replaced asks free =>
    cases replaced
    exact ⟨free, .asked rfl asks⟩
  | judged version decided =>
    subst replaced
    obtain ⟨rfl, rfl, rfl⟩ := Verdict.replaces_own decided
    refine ⟨fun settled => ?_, .judged rfl version decided⟩
    simp [judge, settled, Verdict.change?] at decided

end Run

end VersionAlignment
