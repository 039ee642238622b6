import VersionAlignment.Property.Walk

set_option autoImplicit false

namespace VersionAlignment

def dropAt {α : Type} (drops : Nat → Bool) (as : List α) : List α :=
  (as.zipIdx.filter fun entry => !drops entry.2).map (·.1)

theorem dropAt_sublist {α : Type} (drops : Nat → Bool) (as : List α) :
    List.Sublist (dropAt drops as) as := by
  have := (List.filter_sublist (p := fun entry => !drops entry.2) (l := as.zipIdx)).map (·.1)
  simpa [dropAt] using this

namespace Project

def redeclare (p : Project) (f : Nat → List Declaration → List Declaration) : Project :=
  { p with
    modules := p.modules.mapIdx fun index m => { m with declarations := f index m.declarations } }

def undeclare (p : Project) (drops : Nat → Nat → Bool) : Project :=
  p.redeclare fun index => dropAt (drops index)

@[simp] theorem module?_redeclare (p : Project) (f : Nat → List Declaration → List Declaration)
    (index : Nat) :
    (p.redeclare f).module? index =
      (p.module? index).map fun m => { m with declarations := f index m.declarations } := by
  simp [redeclare, module?]

@[simp] theorem find?_redeclare (p : Project) (f : Nat → List Declaration → List Declaration)
    (group artifact : String) : (p.redeclare f).find? group artifact = p.find? group artifact := by
  have : p.modules.findIdx? (fun m => m.group == group && m.artifact == artifact) =
      p.modules.zipIdx.findIdx? (fun e => e.1.group == group && e.1.artifact == artifact) := by
    conv => lhs; rw [← List.zipIdx_map_fst 0 p.modules, List.findIdx?_map]
    rfl
  rw [find?, find?, this, redeclare, List.mapIdx_eq_zipIdx_map, List.findIdx?_map]
  rfl

@[simp] theorem owns_redeclare (p : Project) (f : Nat → List Declaration → List Declaration)
    (c : Coordinate) : (p.redeclare f).owns c = p.owns c := by
  simp [owns]

end Project

theorem Property.insideMove_redeclare (p : Project)
    (f : Nat → List Declaration → List Declaration) :
    insideMove (p.redeclare f) = insideMove p := by
  funext spot
  simp only [insideMove, Project.module?_redeclare]
  cases p.module? spot.owner <;> rfl

end VersionAlignment
