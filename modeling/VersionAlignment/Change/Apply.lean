import VersionAlignment.Change
import VersionAlignment.Project
import VersionAlignment.Sorted

set_option autoImplicit false

namespace VersionAlignment

namespace Module

def bind (m : Module) (name value : String) : Module :=
  { m with properties := Sorted.put name value m.properties }

end Module

def Declaration.replaceVersion (d : Declaration) (c : Coordinate) (old new : String) :
    Declaration :=
  if d.coordinate = c ∧ d.version = some old then { d with version := some new } else d

namespace Module

def replaceVersion (m : Module) (c : Coordinate) (old new : String) : Module :=
  { m with declarations := m.declarations.map (·.replaceVersion c old new) }

def manage (m : Module) (c : Coordinate) (version : String) (exclusions : List Exclusion) :
    Module :=
  { m with
    declarations := m.declarations ++
      [{ coordinate := c, version := some version, exclusions, place := .management }] }

@[simp] theorem property?_bind (m : Module) (name value other : String) :
    (m.bind name value).property? other = if other = name then some value else m.property? other :=
  Sorted.lookup_put name other value m.properties

@[simp] theorem property?_replaceVersion (m : Module) (c : Coordinate) (old new name : String) :
    (m.replaceVersion c old new).property? name = m.property? name := rfl

@[simp] theorem property?_manage (m : Module) (c : Coordinate) (version name : String)
    (exclusions : List Exclusion) :
    (m.manage c version exclusions).property? name = m.property? name := rfl

end Module

namespace Change

def revise : Change → Module → Module
  | .setProperty _ name value, m => m.bind name value
  | .injectProperty _ name value, m => m.bind name value
  | .overrideVersion _ c old new, m => m.replaceVersion c old new
  | .manage _ c version exclusions _, m => m.manage c version exclusions

theorem identity_revise (change : Change) (m : Module) :
    (change.revise m).identity = m.identity ∧ (change.revise m).parent = m.parent ∧
      (change.revise m).isRoot = m.isRoot := by
  cases change <;> exact ⟨rfl, rfl, rfl⟩

end Change

namespace Project

def modify (p : Project) (index : Nat) (f : Module → Module) : Project :=
  { p with modules := p.modules.modify index f }

def bind (p : Project) (index : Nat) (name value : String) : Project :=
  p.modify index (·.bind name value)

def apply (p : Project) (change : Change) : Project := p.modify change.owner change.revise

def applyAll (p : Project) (changes : List Change) : Project := changes.foldl apply p

theorem module?_modify (p : Project) (index other : Nat) (f : Module → Module) :
    (p.modify index f).module? other =
      if index = other then (p.module? other).map f else p.module? other := by
  simp only [modify, module?, List.getElem?_modify]
  split <;> simp

@[simp] theorem module?_apply (p : Project) (change : Change) (index : Nat) :
    (p.apply change).module? index =
      if change.owner = index then (p.module? index).map change.revise else p.module? index :=
  module?_modify p change.owner index change.revise

@[simp] theorem root_apply (p : Project) (change : Change) : (p.apply change).root = p.root := rfl

@[simp] theorem applyAll_nil (p : Project) : p.applyAll [] = p := rfl

@[simp] theorem applyAll_cons (p : Project) (change : Change) (rest : List Change) :
    p.applyAll (change :: rest) = (p.apply change).applyAll rest := rfl

theorem module?_applyAll (p : Project) (changes : List Change) (index : Nat) :
    (p.applyAll changes).module? index =
      (p.module? index).map fun m =>
        (changes.filter (·.owner == index)).foldl (fun m change => change.revise m) m := by
  induction changes generalizing p with
  | nil => simp
  | cons change rest ih =>
    rw [applyAll_cons, ih, module?_apply]
    by_cases own : change.owner = index
    · cases p.module? index <;> simp [own]
    · simp [own]

end Project

end VersionAlignment
