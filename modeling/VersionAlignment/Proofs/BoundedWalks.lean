import VersionAlignment.Property.Trail

set_option autoImplicit false

namespace VersionAlignment.Property

section

variable {κ ε : Type}

def StopsWithin (move : Spot κ → Move κ ε) (start : Spot κ) (bound : Nat) (ending : ε) : Prop :=
  ∃ n < bound, StopsAfter move start n ending

def ReturnsWithin (move : Spot κ → Move κ ε) (start : Spot κ) (bound : Nat) (spot : Spot κ) :
    Prop :=
  ∃ i j, i < j ∧ j < bound ∧ spotAfter? move start i = some spot ∧
    spotAfter? move start j = some spot

inductive Bounded (move : Spot κ → Move κ ε) (start : Spot κ) (bound : Nat) :
    Except PropertyError ε → Prop
  | ends {ending : ε} : StopsWithin move start bound ending →
      Bounded move start bound (.ok ending)
  | cycle {spot : Spot κ} : ReturnsWithin move start bound spot →
      Bounded move start bound (.error (.cycle spot.name))
  | tooDeep {spot : Spot κ} : (∀ other, ¬ ReturnsWithin move start bound other) →
      spotAfter? move start bound = some spot →
      Bounded move start bound (.error (.tooDeep spot.name))

variable {move : Spot κ → Move κ ε} {start spot : Spot κ} {bound : Nat} {ending : ε}

theorem ReturnsWithin.not_stopsAfter (returns : ReturnsWithin move start bound spot) (n : Nat) :
    ¬ StopsAfter move start n ending := by
  obtain ⟨i, j, before, -, first, second⟩ := returns
  exact fun stops => stops.ne_of_lt before first second rfl

theorem ReturnsWithin.spotAfter?_isSome (returns : ReturnsWithin move start bound spot) (n : Nat) :
    (spotAfter? move start n).isSome := by
  induction n with
  | zero => rfl
  | succ n ih =>
    obtain ⟨here, at_⟩ := Option.isSome_iff_exists.1 ih
    cases next : move here with
    | go next => simp [spotAfter?, at_, next, Move.next?]
    | stop ending => exact absurd ⟨here, at_, next⟩ (returns.not_stopsAfter n)

theorem ReturnsWithin.not_stopsWithin (returns : ReturnsWithin move start bound spot) :
    ¬ StopsWithin move start bound ending := by
  rintro ⟨n, -, stops⟩
  exact returns.not_stopsAfter n stops

theorem StopsWithin.unique {other : ε} (first : StopsWithin move start bound ending)
    (second : StopsWithin move start bound other) : ending = other := by
  obtain ⟨n, -, stops⟩ := first
  obtain ⟨k, -, again⟩ := second
  exact (stops.unique again).2

theorem StopsWithin.not_spotAfter? (stops : StopsWithin move start bound ending) :
    spotAfter? move start bound ≠ some spot := by
  obtain ⟨n, within, stops⟩ := stops
  simp [stops.spotAfter?_eq_none within]

variable [DecidableEq κ]

end

/-- The result is the ending of the walk where it makes less than `maxLookups` moves, a cycle where
it comes to a spot twice with so many, and an error about its depth otherwise. -/
structure Exact {κ ε : Type} (move : Spot κ → Move κ ε) (start : Spot κ)
    (result : Except PropertyError ε) : Prop where
  ends : ∀ ending, result = .ok ending ↔ StopsWithin move start maxLookups ending
  cycle : (∃ name, result = .error (.cycle name)) ↔
    ∃ spot, ReturnsWithin move start maxLookups spot
  tooDeep : (∃ name, result = .error (.tooDeep name)) ↔
    (∀ ending, ¬ StopsWithin move start maxLookups ending) ∧
      ∀ spot, ¬ ReturnsWithin move start maxLookups spot
  cycleName : ∀ name, result = .error (.cycle name) →
    ∃ spot, ReturnsWithin move start maxLookups spot ∧ spot.name = name
  depthName : ∀ name, result = .error (.tooDeep name) →
    ∃ spot, spotAfter? move start maxLookups = some spot ∧ spot.name = name
  endless : ∀ name, result = .error (.cycle name) →
    ∀ n, (spotAfter? move start n).isSome ∧ ∀ ending, ¬ StopsAfter move start n ending

theorem Bounded.exact {κ ε : Type} {move : Spot κ → Move κ ε} {start : Spot κ}
    {result : Except PropertyError ε} (bounded : Bounded move start maxLookups result) :
    Exact move start result := by
  cases bounded with
  | @ends ending stops =>
    have never : ∀ spot, ¬ ReturnsWithin move start maxLookups spot :=
      fun _ returns => returns.not_stopsWithin stops
    refine ⟨fun other => ⟨?_, ?_⟩, ⟨nofun, fun ⟨spot, returns⟩ => absurd returns (never spot)⟩,
      ⟨nofun, fun neither => absurd stops (neither.1 ending)⟩, nofun, nofun, nofun⟩
    · rintro ⟨⟩
      exact stops
    · intro again
      rw [stops.unique again]
  | @cycle spot returns =>
    refine ⟨fun ending => ⟨nofun, fun stops => absurd stops returns.not_stopsWithin⟩,
      ⟨fun _ => ⟨spot, returns⟩, fun _ => ⟨spot.name, rfl⟩⟩,
      ⟨nofun, fun neither => absurd returns (neither.2 spot)⟩, ?_, nofun, ?_⟩
    · rintro name ⟨⟩
      exact ⟨spot, returns, rfl⟩
    · exact fun _ _ n => ⟨returns.spotAfter?_isSome n, fun _ => returns.not_stopsAfter n⟩
  | @tooDeep spot new here =>
    have goesOn : ∀ ending, ¬ StopsWithin move start maxLookups ending :=
      fun _ stops => stops.not_spotAfter? here
    refine ⟨fun ending => ⟨nofun, fun stops => absurd stops (goesOn ending)⟩,
      ⟨nofun, fun ⟨other, returns⟩ => absurd returns (new other)⟩,
      ⟨fun _ => ⟨goesOn, new⟩, fun _ => ⟨spot.name, rfl⟩⟩, nofun, ?_, nofun⟩
    rintro name ⟨⟩
    exact ⟨spot, here, rfl⟩

def Ending.answer (outside : Artifact → String → Except PropertyError (Option String)) :
    Ending → Except PropertyError (Option Resolution)
  | .literal spot value => .ok (some ⟨⟨spot.owner, spot.name, false⟩, value⟩)
  | .undefined => .ok none
  | .boundary spot parent => (outside parent spot.name).map
      (Option.map fun value => ⟨⟨spot.owner, spot.name, true⟩, value⟩)

end VersionAlignment.Property
