set_option autoImplicit false

namespace VersionAlignment.Text

/-- The characters from each bound at an even place up to, and without, the bound after it. -/
abbrev Runs := List Nat

def Runs.contains : Runs → Char → Bool
  | low :: high :: rest, c => (low ≤ c.toNat && c.toNat < high) || Runs.contains rest c
  | _, _ => false

end VersionAlignment.Text
