import VersionAlignment.Proofs.Commitments

set_option autoImplicit false

namespace VersionAlignment.Property

variable {p : Project} {outside : Artifact → String → Except PropertyError (Option String)}

def only (spot : Spot Nat) (value : String) (other : Spot Nat) : Option String :=
  if other = spot then some value else none

theorem rebound_bind (p : Project) (spot : Spot Nat) (value : String) :
    Rebound p (p.bind spot.owner spot.name value) (only spot value) := by
  intro index
  rw [Project.bind, Project.module?_modify]
  cases inside : p.module? index with
  | none => simp
  | some m =>
    by_cases here : spot.owner = index
    · subst here
      rw [if_pos rfl]
      refine ⟨rfl, fun name => ?_⟩
      by_cases same : name = spot.name
      · simp [only, same]
      · have other : (⟨spot.owner, name⟩ : Spot Nat) ≠ spot :=
          fun eq => same (congrArg Spot.name eq)
        simp [only, same, other]
    · have other : ∀ name, (⟨index, name⟩ : Spot Nat) ≠ spot :=
        fun name eq => here (congrArg Spot.owner eq).symm
      simp [here, only, other]

theorem bindsSites_only {owner : Nat} {name value : String} {r : Resolution}
    (found : resolve p outside owner name = .ok (some r)) (literal : reference? value = none) :
    BindsSites p outside (only r.site.spot value) := by
  intro spot other bound
  simp only [only, Option.ite_none_right_eq_some, Option.some.injEq] at bound
  obtain ⟨rfl, rfl⟩ := bound
  exact ⟨literal, r, resolve_site found, rfl⟩

theorem Resolution.rebind_only_of_eq {r other : Resolution} (same : other.site = r.site)
    (value : String) :
    other.rebind (only r.site.spot value) = ⟨⟨r.site.owner, r.site.name, false⟩, value⟩ := by
  simp [rebind, only, same]

theorem Resolution.rebind_only_of_ne {r other : Resolution} (ends : Ends p outside r)
    (endsOther : Ends p outside other) (different : other.site ≠ r.site) (value : String) :
    other.rebind (only r.site.spot value) = other := by
  have apart : other.site.spot ≠ r.site.spot :=
    fun same => different (endsOther.hasSite.eq_of_spot ends.hasSite same)
  simp [rebind, only, apart]

/-- A written property is read by all that resolved to it, and by nothing else. -/
theorem resolve_bind {owner : Nat} {name value : String} {r : Resolution}
    (found : resolve p outside owner name = .ok (some r)) (literal : reference? value = none)
    (reader : Nat) (read : String) :
    let q := p.bind r.site.owner r.site.name value
    (∀ other, resolve p outside reader read = .ok (some other) → other.site = r.site →
      resolve q outside reader read =
        .ok (some ⟨⟨r.site.owner, r.site.name, false⟩, value⟩)) ∧
    ((∀ other, resolve p outside reader read = .ok (some other) → other.site ≠ r.site) →
      resolve q outside reader read = resolve p outside reader read) := by
  intro q
  have after : resolve q outside reader read = (resolve p outside reader read).map
      (Option.map (Resolution.rebind (only r.site.spot value))) :=
    resolve_rebound (rebound_bind p r.site.spot value) (bindsSites_only found literal) reader read
  constructor
  · intro other before same
    simp [after, before, Except.map, Resolution.rebind_only_of_eq same]
  · intro different
    rcases before : resolve p outside reader read with error | _ | other
    · simp [after, before, Except.map]
    · simp [after, before, Except.map]
    · have kept := Resolution.rebind_only_of_ne (ends_of_resolve found) (ends_of_resolve before)
        (different other before) value
      simp [after, before, Except.map, kept]

def belowBoundary : Project where
  modules := [
    { group := "org.acme", artifact := "parent", version := "1", isRoot := true
      parent := some (.outside ⟨⟨"org.jboss", "jboss-parent", "pom", none⟩, "39"⟩) },
    { group := "org.acme", artifact := "core", version := "1", parent := some (.inside 0)
      properties := [("loop", "$\x7bloop\x7d"), ("netty.codec", "$\x7bnetty\x7d")] }]
  root := 0

def nettyOutside (_ : Artifact) (name : String) : Except PropertyError (Option String) :=
  .ok (if name = "netty" then some "1.0" else none)

theorem resolve_bind_belowBoundary :
    resolve belowBoundary nettyOutside 1 "netty.codec" =
        .ok (some ⟨⟨0, "netty", true⟩, "1.0"⟩) ∧
      reference? "2.0" = none ∧
      resolve (belowBoundary.bind 0 "netty" "2.0") nettyOutside 1 "netty.codec" =
        .ok (some ⟨⟨0, "netty", false⟩, "2.0"⟩) ∧
      resolve (belowBoundary.bind 0 "netty" "2.0") nettyOutside 1 "loop" =
        .error (.cycle "loop") := by
  have found : resolve belowBoundary nettyOutside 1 "netty.codec" =
      .ok (some ⟨⟨0, "netty", true⟩, "1.0"⟩) := rfl
  have loops : resolve belowBoundary nettyOutside 1 "loop" = .error (.cycle "loop") := rfl
  refine ⟨found, by decide, ?_, ?_⟩
  · exact (resolve_bind found (by decide) 1 "netty.codec").1 _ found rfl
  · rw [← loops]
    refine (resolve_bind found (by decide) 1 "loop").2 ?_
    simp [loops]

end VersionAlignment.Property
