import VersionAlignment.Proofs.LockGrounds
import VersionAlignment.Proofs.ManifestChannel

set_option autoImplicit false

namespace VersionAlignment

open Property

namespace Override

variable {s : Setting} {m : Module} {index : Nat} {site : Site}

theorem findSome?_claim?_of_elsewhere {entries : List (Module × Nat)}
    (elsewhere : ∀ entry ∈ entries, entry.2 ≠ site.owner) :
    entries.findSome? (claim? s site) = entries.findSome? (dependencyClaim? s site) := by
  induction entries with
  | nil => rfl
  | cons entry rest ih =>
    obtain ⟨first, elsewhere⟩ := List.forall_mem_cons.1 elsewhere
    have same : claim? s site entry = dependencyClaim? s site entry := by
      simp [claim?, propertyClaim?, first]
    rw [List.findSome?_cons, List.findSome?_cons, same, ih elsewhere]

theorem claim?_of_own {current wanted : String} (heeded : s.policy.ignoresModule m = false)
    (own : m.property? site.name = some current)
    (forced : s.policy.propertyOverride? site.name = some wanted) :
    claim? s site (m, site.owner) = some wanted := by
  simp [claim?, propertyClaim?, heeded, own, forced]

theorem get?_all_of_own {current wanted : String} (inside : site.outside = false)
    (present : s.project.module? site.owner = some m) (heeded : s.policy.ignoresModule m = false)
    (own : m.property? site.name = some current)
    (forced : s.policy.propertyOverride? site.name = some wanted) :
    (all s {}).locks.get? site = some (final
      (((s.project.indexed.take site.owner).findSome? (dependencyClaim? s site)).getD wanted)) := by
  obtain ⟨rest, split, elsewhere⟩ := Run.indexed_split present
  have claims : s.project.indexed.findSome? (claim? s site) =
      ((s.project.indexed.take site.owner).findSome? (dependencyClaim? s site)).or (some wanted) :=
    calc
      _ = (s.project.indexed.take site.owner ++ (m, site.owner) :: rest).findSome?
            (claim? s site) := congrArg _ split
      _ = _ := by
        rw [List.findSome?_append, List.findSome?_cons, claim?_of_own heeded own forced,
          findSome?_claim?_of_elsewhere elsewhere]
  rw [get?_all inside, claims]
  cases (s.project.indexed.take site.owner).findSome? (dependencyClaim? s site) <;> rfl

end Override

/-- A property override holds unless the override of a dependency in an earlier module goes through
the property; then the first of these does. -/
theorem Run.property_override_holds (s : Setting) {m : Module} {index : Nat}
    {name current wanted : String} (present : s.project.module? index = some m)
    (heeded : s.policy.ignoresModule m = false) (own : m.property? name = some current)
    (forced : s.policy.propertyOverride? name = some wanted) :
    ∃ n, (s.project.applyAll (declared s).changes.changes).module? index = some n ∧
      n.property? name = some (((s.project.indexed.take index).findSome?
        (Override.dependencyClaim? s ⟨index, name, false⟩)).getD wanted) := by
  let site : Site := ⟨index, name, false⟩
  have locked : (Override.all s {}).locks.get? site = some (Override.final
      (((s.project.indexed.take index).findSome?
        (Override.dependencyClaim? s site)).getD wanted)) :=
    Override.get?_all_of_own rfl present heeded own forced
  exact (grounded_declared s).property?_changed (consistent_declared s) rfl
    (locks_stay_of_all locked)

def childFirst : Project where
  modules := [
    { group := "org.acme", artifact := "core", version := "1", parent := some (.inside 1)
      declarations := [
        { coordinate := ⟨"io.netty", "netty-codec", "jar", none⟩
          version := some "$\x7bnetty\x7d" }] },
    { group := "org.acme", artifact := "parent", version := "1", isRoot := true
      properties := [("netty", "1.0")] }]
  root := 1

def forcedTwice : Options where
  overrideProperties := ["netty=2.0"]
  overrideDependencies := ["io.netty:netty-codec:3.0"]

theorem Run.property_override_childFirst :
    let run := declared (.ofOptions childFirst .alone forcedTwice)
    ∃ n, (childFirst.applyAll run.changes.changes).module? 1 = some n ∧
      n.property? "netty" = some "3.0" :=
  property_override_holds (.ofOptions childFirst .alone forcedTwice) rfl (by decide) rfl rfl

theorem Run.property_override_lost :
    let s := Setting.ofOptions childFirst .alone forcedTwice
    let changed := childFirst.applyAll (declared s).changes.changes
    ∃ m n, childFirst.module? 1 = some m ∧ s.policy.ignoresModule m = false ∧
      m.property? "netty" = some "1.0" ∧ s.policy.propertyOverride? "netty" = some "2.0" ∧
      changed.module? 1 = some n ∧ n.property? "netty" = some "3.0" :=
  ⟨_, _, rfl, by decide, rfl, rfl, rfl, rfl⟩

end VersionAlignment
