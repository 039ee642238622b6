import VersionAlignment.Proofs.Commitments
import VersionAlignment.Proofs.VersionOrder

set_option autoImplicit false

namespace VersionAlignment

open Property

def Policy.Unforced (policy : Policy) : Prop :=
  policy.propertyOverrides = [] ∧ policy.dependencyOverrides = []

/-- The channel asks for a change, and the options allow it. -/
def Setting.Sanctions (s : Setting) : Change → Prop
  | .setProperty _ _ value => ∃ c current, s.given.channel c current = some value
  | .injectProperty _ _ value => s.options.injectExternalProperties = true ∧
      ∃ c current, s.given.channel c current = some value
  | .overrideVersion _ c _ new => ∃ current, s.given.channel c current = some new
  | .manage .. => False

theorem Setting.sanctions_propertyWrite {s : Setting} {site : Site} {value : String} :
    s.Sanctions (propertyWrite site value) ↔
      (site.outside = true → s.options.injectExternalProperties = true) ∧
        ∃ c current, s.given.channel c current = some value := by
  rcases site with ⟨_, _, _ | _⟩ <;> simp [propertyWrite, Sanctions]

namespace Verdict

variable {s : Setting} {locks : Locks} {target : String} {index : Nat} {c : Coordinate}
  {raw : String} {change : Change}

theorem change?_ofInline {current : String}
    (changes : (ofInline s current target).change? index c raw = some change) :
    change = .overrideVersion index c raw target := by
  unfold ofInline at changes
  split at changes <;> simp_all [change?]

theorem change?_ofLocked {site : Site} {lock : Lock}
    (changes : (ofLocked s site lock target).change? index c raw = some change) :
    change = .overrideVersion index c raw target := by
  unfold ofLocked at changes
  split at changes
  · cases changes
  · split at changes
    · cases changes
    · split at changes <;> simp_all [change?]

theorem change?_ofUnlocked {site : Site} {current : String}
    (changes : (ofUnlocked s site current target).change? index c raw = some change) :
    change = propertyWrite site target ∧
      (site.outside = true → s.options.injectExternalProperties = true) := by
  unfold ofUnlocked at changes
  split at changes
  · cases changes
  · split at changes
    · cases changes
    · next inject =>
      simp only [change?, Option.some.injEq] at changes
      exact ⟨changes.symm, by simpa using inject⟩

theorem sanctions_ofTarget {written : Written} {current : String}
    (covered : s.given.channel c current = some target)
    (changes : (ofTarget s locks target written).change? index c raw = some change) :
    s.Sanctions change := by
  have targeted := ofTarget_targeted s locks target written
  generalize ofTarget s locks target written = v at targeted changes
  cases targeted with
  | inPlace =>
    rw [change?_ofInline changes]
    exact ⟨current, covered⟩
  | unresolved | unresolvedIgnored | ignored => cases changes
  | locked =>
    rw [change?_ofLocked changes]
    exact ⟨current, covered⟩
  | unlocked =>
    obtain ⟨rfl, inject⟩ := change?_ofUnlocked changes
    exact Setting.sanctions_propertyWrite.2 ⟨inject, c, current, covered⟩

theorem sanctions_judge {run : Run} {d : Declaration}
    (changes : (judge s run index d raw).change? index d.coordinate raw = some change) :
    s.Sanctions change := by
  have judged := judge_judged s run index d raw
  generalize judge s run index d raw = v at judged changes
  cases judged with
  | exempt | ignored | silent | uncovered => cases changes
  | live live => exact sanctions_ofTarget live.covered changes

end Verdict

namespace Run

def Backed (s : Setting) (run : Run) (site : Site) (lock : Lock) : Prop :=
  lock.origin = .channel ∧ s.options.inlineVersions = false ∧
    ∃ value, s.resolve site.owner site.name = .ok (some ⟨site, value⟩) ∧
      (lock.value = value ∨ propertyWrite site lock.value ∈ run.changes.changes)

theorem Backed.of_commits {s : Setting} {run later : Run} {site : Site} {lock : Lock}
    (backed : Backed s run site lock) (commits : Commits s run later) :
    Backed s later site lock := by
  obtain ⟨origin, apart, value, resolved, same | present⟩ := backed
  · exact ⟨origin, apart, value, resolved, .inl same⟩
  · exact ⟨origin, apart, value, resolved, .inr (commits.changes_stay present)⟩

structure Sound (s : Setting) (run : Run) : Prop extends Consistent s run where
  overridden : run.overridden = []
  locked : ∀ site lock, run.locks.get? site = some lock → Backed s run site lock
  sanctioned : ∀ change ∈ run.changes.changes, s.Sanctions change

theorem sound_empty (s : Setting) : Sound s {} where
  toConsistent := consistent_empty s
  overridden := rfl
  locked := by simp [Locks.get?]
  sanctioned := by simp

theorem Sound.note {s : Setting} {run : Run} (sound : Sound s run) (message : String) :
    Sound s (run.note message) where
  toConsistent := sound.toConsistent.of_commits (.nothing rfl rfl)
  overridden := sound.overridden
  locked := sound.locked
  sanctioned := sound.sanctioned

theorem Sound.judged {s : Setting} {run : Run} (sound : Sound s run) (index : Nat)
    (d : Declaration) (raw : String) :
    Sound s (run.carryOut s index d.coordinate raw (judge s run index d raw)) := by
  have commits := judged_commits s run index d raw
  refine ⟨sound.toConsistent.of_commits commits, ?_, ?_, ?_⟩
  · rw [carryOut_overridden, sound.overridden]
  · intro site lock found
    cases new : (judge s run index d raw).lock? with
    | none =>
      rw [carryOut_locks, new] at found
      exact (sound.locked site lock found).of_commits commits
    | some entry =>
      obtain ⟨other, value⟩ := entry
      obtain ⟨free, apart, -⟩ := lock?_judge new
      rw [carryOut_locks, new, Locks.get?_lock] at found
      split at found
      · next here =>
        subst here
        simp only [free, Option.getD_none, Option.some.injEq] at found
        exact found ▸ ⟨rfl, apart, resolve_of_lock? new⟩
      · exact (sound.locked site lock found).of_commits commits
  · intro change present
    rcases mem_carryOut_changes.1 present with old | new
    · exact sound.sanctioned change old
    · exact Verdict.sanctions_judge new

theorem Sound.alignDeclaration {s : Setting} {run : Run} (sound : Sound s run) (index : Nat)
    (d : Declaration) : Sound s (alignDeclaration s index run d) := by
  unfold Run.alignDeclaration
  split
  · exact sound
  · exact sound.judged index d _

end Run

end VersionAlignment
