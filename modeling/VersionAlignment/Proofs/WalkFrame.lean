import VersionAlignment.Proofs.Rebinding
import VersionAlignment.Property.Trail

set_option autoImplicit false

namespace VersionAlignment.Property

section

variable {κ ε : Type} {move move' : Spot κ → Move κ ε} {start next spot : Spot κ}

theorem visits_start (move : Spot κ → Move κ ε) (start : Spot κ) : Visits move start start :=
  ⟨0, rfl⟩

theorem Visits.of_go (visits : Visits move next spot) (go : move start = .go next) :
    Visits move start spot := by
  obtain ⟨n, here⟩ := visits
  have first : spotAfter? move start 1 = some next := by simp [spotAfter?, go, Move.next?]
  exact ⟨1 + n, by rw [spotAfter?_add, first]; exact here⟩

variable [DecidableEq κ]

theorem follow_along {left : Nat} {seen : List (Spot κ)} {ending : ε}
    (ends : follow move left seen start = .ok ending)
    (goes : ∀ spot next, Visits move start spot → move spot = .go next → move' spot = .go next) :
    ∃ last, Visits move start last ∧ move last = .stop ending ∧
      ∀ other, move' last = .stop other → follow move' left seen start = .ok other := by
  induction left generalizing seen start with
  | zero => cases ends
  | succ left ih =>
    simp only [follow] at ends
    split at ends
    · cases ends
    · next new =>
      cases here : move start with
      | go next =>
        simp only [here] at ends
        obtain ⟨last, visits, stop, same⟩ := ih ends fun spot after visits =>
          goes spot after (visits.of_go here)
        refine ⟨last, visits.of_go here, stop, fun other stop' => ?_⟩
        simpa [follow, new, goes start next (visits_start move start) here] using same other stop'
      | stop found =>
        simp only [here, Except.ok.injEq] at ends
        refine ⟨start, visits_start move start, by rw [here, ends], fun other stop' => ?_⟩
        simp [follow, new, stop']

theorem stop_unique {ending other : ε} (ends : walk move start = .ok ending)
    (visits : Visits move start spot) (stop : move spot = .stop other) : ending = other := by
  obtain ⟨last, ⟨n, here⟩, stop', -⟩ := follow_along ends fun _ _ _ go => go
  obtain ⟨k, there⟩ := visits
  have first : StopsAfter move start n ending := ⟨last, here, stop'⟩
  exact (first.unique ⟨spot, there, stop⟩).2

end

variable {p q : Project} {outside : Artifact → String → Except PropertyError (Option String)}

theorem resolve_along {values : Spot Nat → Option String} (rebound : Rebound p q values)
    {owner : Nat} {name : String} {r : Resolution}
    (found : resolve p outside owner name = .ok (some r))
    (kept : ∀ spot next, Visits (insideMove p) ⟨owner, name⟩ spot →
      insideMove p spot = .go next → values spot = none)
    (literal : ∀ value, values r.site.spot = some value → reference? value = none) :
    resolve q outside owner name = .ok (some (r.rebind values)) := by
  have goes : ∀ spot next, Visits (insideMove p) ⟨owner, name⟩ spot →
      insideMove p spot = .go next → insideMove q spot = .go next := fun spot next visits go => by
    rw [insideMove_unbound rebound (kept spot next visits go), go]
  unfold resolve at found
  split at found
  · cases found
  · cases found
  · next spot value ends =>
    cases found
    obtain ⟨last, -, stop, same⟩ := follow_along ends goes
    obtain ⟨rfl, -⟩ := insideMove_literal stop
    cases bound : values spot with
    | none =>
      have after := same _ ((insideMove_unbound rebound bound).trans stop)
      simp [resolve, walk, after, Resolution.rebind, Site.spot, bound]
    | some other =>
      have after := same _ (insideMove_bound rebound bound (literal other bound) stop (by simp))
      simp [resolve, walk, after, Resolution.rebind, Site.spot, bound]
  · next spot parent ends =>
    obtain ⟨last, -, stop, same⟩ := follow_along ends goes
    obtain ⟨rfl, -⟩ := insideMove_boundary stop
    split at found
    · cases found
    · cases found
    · next answer =>
      cases found
      cases bound : values spot with
      | none =>
        have after := same _ ((insideMove_unbound rebound bound).trans stop)
        simp [resolve, walk, after, answer, Resolution.rebind, Site.spot, bound]
      | some other =>
        have after := same _ (insideMove_bound rebound bound (literal other bound) stop (by simp))
        simp [resolve, walk, after, Resolution.rebind, Site.spot, bound]

end VersionAlignment.Property
