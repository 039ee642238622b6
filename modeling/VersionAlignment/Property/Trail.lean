import VersionAlignment.Property.Walk

set_option autoImplicit false

namespace VersionAlignment.Property

variable {κ ε : Type}

def Move.next? : Move κ ε → Option (Spot κ)
  | .go next => some next
  | .stop _ => none

def spotAfter? (move : Spot κ → Move κ ε) (start : Spot κ) : Nat → Option (Spot κ)
  | 0 => some start
  | n + 1 => (spotAfter? move start n).bind fun spot => (move spot).next?

def Visits (move : Spot κ → Move κ ε) (start spot : Spot κ) : Prop :=
  ∃ n, spotAfter? move start n = some spot

def StopsAfter (move : Spot κ → Move κ ε) (start : Spot κ) (n : Nat) (ending : ε) : Prop :=
  ∃ spot, spotAfter? move start n = some spot ∧ move spot = .stop ending

theorem spotAfter?_add (move : Spot κ → Move κ ε) (start : Spot κ) (n k : Nat) :
    spotAfter? move start (n + k) =
      (spotAfter? move start n).bind fun spot => spotAfter? move spot k := by
  induction k with
  | zero => simp [spotAfter?]
  | succ k ih => simp [spotAfter?, ih, Option.bind_assoc]

theorem StopsAfter.spotAfter?_eq_none {move : Spot κ → Move κ ε} {start : Spot κ} {n k : Nat}
    {ending : ε} (h : StopsAfter move start n ending) (later : n < k) :
    spotAfter? move start k = none := by
  obtain ⟨spot, here, stop⟩ := h
  obtain ⟨d, rfl⟩ := Nat.exists_eq_add_of_lt later
  rw [Nat.add_assoc, spotAfter?_add, here, Nat.add_comm d 1, Option.bind_some, spotAfter?_add]
  simp [spotAfter?, stop, Move.next?]

theorem StopsAfter.unique {move : Spot κ → Move κ ε} {start : Spot κ} {n k : Nat} {a b : ε}
    (h : StopsAfter move start n a) (h' : StopsAfter move start k b) : n = k ∧ a = b := by
  have same : n = k := by
    rcases Nat.lt_trichotomy n k with lt | same | lt
    · obtain ⟨_, there, _⟩ := h'
      simp [h.spotAfter?_eq_none lt] at there
    · exact same
    · obtain ⟨_, there, _⟩ := h
      simp [h'.spotAfter?_eq_none lt] at there
  subst same
  obtain ⟨spot, here, stop⟩ := h
  obtain ⟨spot', here', stop'⟩ := h'
  simp_all

theorem StopsAfter.ne_of_lt {move : Spot κ → Move κ ε} {start spot spot' : Spot κ} {n i j : Nat}
    {ending : ε} (h : StopsAfter move start n ending) (lt : i < j)
    (first : spotAfter? move start i = some spot) (second : spotAfter? move start j = some spot') :
    spot ≠ spot' := by
  rintro rfl
  have before : j ≤ n := Nat.le_of_not_lt fun later => by
    simp [h.spotAfter?_eq_none later] at second
  -- The rest of the walk is the same from both places, so its ending comes at two different ends.
  obtain ⟨last, here, stop⟩ := h
  obtain ⟨d, rfl⟩ := Nat.exists_eq_add_of_le before
  rw [spotAfter?_add, second] at here
  have early : StopsAfter move start (i + d) ending :=
    ⟨last, by rw [spotAfter?_add, first]; exact here, stop⟩
  have late : StopsAfter move start (j + d) ending :=
    ⟨last, by rw [spotAfter?_add, second]; exact here, stop⟩
  have := (early.unique late).1
  omega

end VersionAlignment.Property
