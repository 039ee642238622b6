import VersionAlignment.Proofs.Additions
import VersionAlignment.Proofs.LockGrounds
import VersionAlignment.Proofs.WalkFrame

set_option autoImplicit false

namespace VersionAlignment

open Property

structure Setting.Literal (s : Setting) : Prop where
  channel : s.ChannelIsLiteral
  forced : ∀ name value, s.policy.Forces name value → reference? value = none

theorem Setting.Offers.unique {s : Setting} {site : Site} {a b : String} (first : s.Offers site a)
    (second : s.Offers site b) : a = b := by
  cases inside : site.outside with
  | false =>
    obtain ⟨m, present, own⟩ := first.bound inside
    obtain ⟨n, present', own'⟩ := second.bound inside
    rw [present, Option.some.injEq] at present'
    rw [← present', own, Option.some.injEq] at own'
    exact own'
  | true =>
    cases first with
    | overridden outside => simp [inside] at outside
    | resolved found =>
      cases second with
      | overridden outside => simp [inside] at outside
      | resolved found' => simpa [found] using found'

/-- No alias on the way from a name to its property is set by hand. -/
def Setting.WayFree (s : Setting) (index : Nat) (name : String) : Prop :=
  ∀ spot next, Visits (insideMove s.project) ⟨index, name⟩ spot →
    insideMove s.project spot = .go next → ¬ s.Overrides spot

namespace Run

variable {s : Setting}

theorem literal_of_write (literal : s.Literal) {site : Site} {value : String}
    (written : propertyWrite site value ∈ (declared s).changes.changes) :
    reference? value = none := by
  obtain ⟨front, step, back, -, adds⟩ := exists_adds written
  rcases adds.source with forced | ⟨c, current, covered⟩
  · exact literal.forced site.name value forced
  · exact literal.channel c current value covered

theorem value_of_locked {index : Nat} {name : String} {r : Resolution} {lock : Lock}
    (found : s.resolve index name = .ok (some r))
    (locked : (declared s).locks.get? r.site = some lock) :
    (boundBy (declared s).changes.changes r.site.spot).getD r.value = lock.value := by
  cases bound : boundBy (declared s).changes.changes r.site.spot with
  | some value => exact (consistent_declared s).eq_of_boundBy locked bound
  | none =>
    obtain ⟨current, offers, held⟩ := grounded_declared s r.site lock locked
    have same : lock.value = current :=
      held.resolve_right (unwritten_of_boundBy bound)
    exact (Setting.Offers.resolved (resolve_site found)).unique (same ▸ offers)

theorem value_of_kept {index : Nat} {name : String} {r : Resolution}
    (found : s.resolve index name = .ok (some r))
    (kept : ∀ value, propertyWrite r.site value ∈ (declared s).changes.changes →
      value = r.value) :
    (boundBy (declared s).changes.changes r.site.spot).getD r.value = r.value := by
  cases bound : boundBy (declared s).changes.changes r.site.spot with
  | none => rfl
  | some value => exact kept value ((consistent_declared s).write_of_boundBy found bound)

theorem current?_along {index : Nat} {raw name : String} {r : Resolution}
    (named : reference? raw = some name) (found : s.resolve index name = .ok (some r))
    (free : s.WayFree index name)
    (literal : ∀ value, boundBy (declared s).changes.changes r.site.spot = some value →
      reference? value = none) :
    (Written.read { s with project := s.project.applyAll (declared s).changes.changes } index
      raw).current? = some ((boundBy (declared s).changes.changes r.site.spot).getD r.value) := by
  have rebound := s.project.rebound_applyAll (declared s).changes.changes
  have after := resolve_along rebound found
    (fun spot next visits go => (grounded_declared s).unbound_of_go (consistent_declared s) go
      (free spot next visits go)) literal
  simp [Written.read, named, Setting.resolve, after, Written.current?, Resolution.value_rebind]

end Run

end VersionAlignment
