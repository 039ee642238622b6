import VersionAlignment.Change.Apply
import VersionAlignment.Property.Walk

set_option autoImplicit false

namespace VersionAlignment.Property

section

variable {κ ε ε' : Type}

def Move.map (f : ε → ε') : Move κ ε → Move κ ε'
  | .go next => .go next
  | .stop ending => .stop (f ending)

@[simp] theorem Move.map_go (f : ε → ε') (next : Spot κ) :
    (Move.go next : Move κ ε).map f = .go next := rfl

@[simp] theorem Move.map_stop (f : ε → ε') (ending : ε) :
    (Move.stop ending : Move κ ε).map f = .stop (f ending) := rfl

variable [DecidableEq κ]

theorem follow_map (f : ε → ε') (move : Spot κ → Move κ ε) (left : Nat) (seen : List (Spot κ))
    (spot : Spot κ) :
    follow (fun spot => (move spot).map f) left seen spot = (follow move left seen spot).map f := by
  induction left generalizing seen spot with
  | zero => rfl
  | succ left ih =>
    simp only [follow]
    by_cases again : spot ∈ seen
    · simp [again, Except.map]
    · cases next : move spot with
      | go next => simp [again, ih]
      | stop ending => simp [again, Except.map]

theorem walk_map (f : ε → ε') (move : Spot κ → Move κ ε) (start : Spot κ) :
    walk (fun spot => (move spot).map f) start = (walk move start).map f :=
  follow_map f move maxLookups [] start

theorem stop_of_follow {move : Spot κ → Move κ ε} {left : Nat} {seen : List (Spot κ)}
    {spot : Spot κ} {ending : ε} (ends : follow move left seen spot = .ok ending) :
    ∃ last, move last = .stop ending := by
  induction left generalizing seen spot with
  | zero => simp [follow] at ends
  | succ left ih =>
    simp only [follow] at ends
    split at ends
    · cases ends
    · cases next : move spot with
      | go next =>
        simp only [next] at ends
        exact ih ends
      | stop other =>
        simp only [next, Except.ok.injEq] at ends
        exact ⟨spot, by rw [next, ends]⟩

theorem walk_of_stop {move : Spot κ → Move κ ε} {start : Spot κ} {ending : ε}
    (stop : move start = .stop ending) : walk move start = .ok ending := by
  simp [walk, maxLookups, follow, stop]

end

theorem insideMove_literal {p : Project} {spot here : Spot Nat} {value : String}
    (stop : insideMove p spot = .stop (.literal here value)) :
    here = spot ∧ ∃ m, p.module? spot.owner = some m ∧ m.property? spot.name = some value := by
  unfold insideMove at stop
  split at stop
  · cases stop
  · next m inside =>
    split at stop
    · next bound =>
      split at stop
      · cases stop
      · cases stop
        exact ⟨rfl, m, inside, bound⟩
    · split at stop <;> cases stop

theorem insideMove_boundary {p : Project} {spot here : Spot Nat} {parent : Artifact}
    (stop : insideMove p spot = .stop (.boundary here parent)) :
    here = spot ∧ ∃ m, p.module? spot.owner = some m ∧ m.property? spot.name = none ∧
      m.parent = some (.outside parent) := by
  unfold insideMove at stop
  split at stop
  · cases stop
  · next m inside =>
    split at stop
    · split at stop <;> cases stop
    · next unbound =>
      split at stop
      · cases stop
      · next above =>
        cases stop
        exact ⟨rfl, m, inside, unbound, above⟩
      · cases stop

def Site.spot (site : Site) : Spot Nat := ⟨site.owner, site.name⟩

theorem Site.ext_spot {a b : Site} (spot : a.spot = b.spot) (outside : a.outside = b.outside) :
    a = b := by
  cases a
  cases b
  simp_all [Site.spot]

variable {p q : Project} {outside : Artifact → String → Except PropertyError (Option String)}

inductive Ends (p : Project) (outside : Artifact → String → Except PropertyError (Option String)) :
    Resolution → Prop
  | inside {spot : Spot Nat} {value : String} :
    insideMove p spot = .stop (.literal spot value) →
      Ends p outside ⟨⟨spot.owner, spot.name, false⟩, value⟩
  | outside {spot : Spot Nat} {parent : Artifact} {value : String} :
    insideMove p spot = .stop (.boundary spot parent) →
      outside parent spot.name = .ok (some value) →
      Ends p outside ⟨⟨spot.owner, spot.name, true⟩, value⟩

theorem ends_of_resolve {owner : Nat} {name : String} {r : Resolution}
    (found : resolve p outside owner name = .ok (some r)) : Ends p outside r := by
  unfold resolve at found
  split at found
  · cases found
  · cases found
  · next spot value ends =>
    cases found
    obtain ⟨last, stop⟩ := stop_of_follow ends
    obtain ⟨rfl, -⟩ := insideMove_literal stop
    exact .inside stop
  · next spot parent ends =>
    obtain ⟨last, stop⟩ := stop_of_follow ends
    obtain ⟨rfl, -⟩ := insideMove_boundary stop
    split at found
    · cases found
    · cases found
    · next answer =>
      cases found
      exact .outside stop answer

theorem Ends.bound {r : Resolution} (ends : Ends p outside r) (inside : r.site.outside = false) :
    ∃ m, p.module? r.site.owner = some m ∧ m.property? r.site.name = some r.value := by
  cases ends with
  | inside stop => exact (insideMove_literal stop).2
  | outside stop => cases inside

theorem Ends.unbound {r : Resolution} (ends : Ends p outside r) (out : r.site.outside = true) :
    ∃ m parent, p.module? r.site.owner = some m ∧ m.property? r.site.name = none ∧
      m.parent = some (.outside parent) := by
  cases ends with
  | inside stop => cases out
  | outside stop =>
    obtain ⟨-, m, present, unbound, above⟩ := insideMove_boundary stop
    exact ⟨m, _, present, unbound, above⟩

theorem Ends.resolve_site {r : Resolution} (ends : Ends p outside r) :
    resolve p outside r.site.owner r.site.name = .ok (some r) := by
  cases ends with
  | inside stop => simp [resolve, walk_of_stop stop]
  | outside stop answer => simp [resolve, walk_of_stop stop, answer]

theorem resolve_site {owner : Nat} {name : String} {r : Resolution}
    (found : resolve p outside owner name = .ok (some r)) :
    resolve p outside r.site.owner r.site.name = .ok (some r) :=
  (ends_of_resolve found).resolve_site

def Ending.rebind (values : Spot Nat → Option String) : Ending → Ending
  | .literal spot value => .literal spot ((values spot).getD value)
  | .undefined => .undefined
  | .boundary spot parent =>
    match values spot with
    | some value => .literal spot value
    | none => .boundary spot parent

def Resolution.rebind (values : Spot Nat → Option String) (r : Resolution) : Resolution :=
  match values r.site.spot with
  | some value => ⟨⟨r.site.owner, r.site.name, false⟩, value⟩
  | none => r

@[simp] theorem Resolution.spot_rebind (values : Spot Nat → Option String) (r : Resolution) :
    (r.rebind values).site.spot = r.site.spot := by
  unfold rebind
  split <;> rfl

theorem Resolution.name_rebind (values : Spot Nat → Option String) (r : Resolution) :
    (r.rebind values).site.name = r.site.name :=
  congrArg Spot.name (r.spot_rebind values)

theorem Resolution.value_rebind (values : Spot Nat → Option String) (r : Resolution) :
    (r.rebind values).value = (values r.site.spot).getD r.value := by
  unfold rebind
  split <;> simp_all

def Rebound (p q : Project) (values : Spot Nat → Option String) : Prop :=
  ∀ index, match p.module? index, q.module? index with
    | some m, some n => n.parent = m.parent ∧
        ∀ name, n.property? name = (values ⟨index, name⟩).or (m.property? name)
    | none, none => True
    | _, _ => False

def BindsSites (p : Project)
    (outside : Artifact → String → Except PropertyError (Option String))
    (values : Spot Nat → Option String) : Prop :=
  ∀ spot value, values spot = some value →
    reference? value = none ∧
      ∃ r, resolve p outside spot.owner spot.name = .ok (some r) ∧ r.site.spot = spot

theorem BindsSites.stop {values : Spot Nat → Option String} (sites : BindsSites p outside values)
    {spot : Spot Nat} {value : String} (bound : values spot = some value) :
    (∃ old, insideMove p spot = .stop (.literal spot old)) ∨
      ∃ parent old, insideMove p spot = .stop (.boundary spot parent) ∧
        outside parent spot.name = .ok (some old) := by
  obtain ⟨-, r, found, here⟩ := sites spot value bound
  cases ends_of_resolve found with
  | inside stop =>
    cases here
    exact .inl ⟨_, stop⟩
  | outside stop answer =>
    cases here
    exact .inr ⟨_, _, stop, answer⟩

theorem insideMove_unbound {values : Spot Nat → Option String} (rebound : Rebound p q values)
    {spot : Spot Nat} (unbound : values spot = none) : insideMove q spot = insideMove p spot := by
  have same := rebound spot.owner
  unfold insideMove
  split at same
  · next m n before after => simp [before, after, same.1, same.2, unbound]
  · next before after => simp [before, after]
  · exact same.elim

theorem insideMove_bound {values : Spot Nat → Option String} (rebound : Rebound p q values)
    {spot : Spot Nat} {value : String} (bound : values spot = some value)
    (literal : reference? value = none) {ending : Ending}
    (stop : insideMove p spot = .stop ending) (defined : ending ≠ .undefined) :
    insideMove q spot = .stop (.literal spot value) := by
  have same := rebound spot.owner
  unfold insideMove at stop ⊢
  split at same
  · next m n before after => simp [after, same.2, bound, literal]
  · next before after =>
    simp only [before, Move.stop.injEq] at stop
    exact absurd stop.symm defined
  · exact same.elim

theorem insideMove_rebound {values : Spot Nat → Option String} (rebound : Rebound p q values)
    (sites : BindsSites p outside values) (spot : Spot Nat) :
    insideMove q spot = (insideMove p spot).map (Ending.rebind values) := by
  cases bound : values spot with
  | none =>
    rw [insideMove_unbound rebound bound]
    unfold insideMove
    split
    · rfl
    · split
      · split <;> simp [Ending.rebind, bound]
      · split <;> simp [Ending.rebind, bound]
  | some value =>
    -- A bound place was an ending before as well, so the walk ends there all the same.
    have literal := (sites spot value bound).1
    rcases sites.stop bound with ⟨old, stop⟩ | ⟨parent, old, stop, -⟩
    · rw [insideMove_bound rebound bound literal stop nofun, stop]
      simp [Ending.rebind, bound]
    · rw [insideMove_bound rebound bound literal stop nofun, stop]
      simp [Ending.rebind, bound]

theorem resolve_rebound {values : Spot Nat → Option String} (rebound : Rebound p q values)
    (sites : BindsSites p outside values) (owner : Nat) (name : String) :
    resolve q outside owner name =
      (resolve p outside owner name).map (Option.map (Resolution.rebind values)) := by
  have moves : insideMove q = fun spot => (insideMove p spot).map (Ending.rebind values) :=
    funext (insideMove_rebound rebound sites)
  unfold resolve
  rw [moves, walk_map]
  cases ends : walk (insideMove p) ⟨owner, name⟩ with
  | error error => rfl
  | ok ending =>
    cases ending with
    | undefined => rfl
    | literal spot value =>
      cases bound : values spot <;>
        simp [Except.map, Ending.rebind, Resolution.rebind, Site.spot, bound]
    | boundary spot parent =>
      obtain ⟨last, stop⟩ := stop_of_follow ends
      obtain ⟨rfl, -⟩ := insideMove_boundary stop
      cases bound : values spot with
      | none =>
        simp only [Except.map, Ending.rebind, bound]
        cases answer : outside parent spot.name with
        | error error => rfl
        | ok found => cases found <;> simp [Resolution.rebind, Site.spot, bound]
      | some value =>
        -- A place that is bound has a value there, so the parent's answer is no error.
        rcases sites.stop bound with ⟨old, literal⟩ | ⟨other, old, boundary, answer⟩
        · simp [literal] at stop
        · rw [boundary] at stop
          cases stop
          simp [Except.map, Ending.rebind, Resolution.rebind, Site.spot, bound, answer]

end VersionAlignment.Property
