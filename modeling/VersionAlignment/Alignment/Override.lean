import VersionAlignment.Alignment.Run

set_option autoImplicit false

namespace VersionAlignment.Override

open Property

def property (s : Setting) (m : Module) (index : Nat) (run : Run) (entry : String × String) :
    Run :=
  let (name, current) := entry
  match s.policy.propertyOverride? name with
  | none => run
  | some value =>
    let site : Site := ⟨index, name, false⟩
    if (run.locks.get? site).isSome then run
    else
      let locked := run.lock site value .override
      if current = value then locked
      else (locked.note s!"Overriding property {name} of {m} to {value}").push
        (.setProperty index name value)

def inPlace (run : Run) (index : Nat) (c : Coordinate) (raw current version : String) : Run :=
  if current = version then run
  else (run.note s!"Overriding {c} inline to {version}").push
    (.overrideVersion index c raw version)

def resolution? (s : Setting) (index : Nat) (c : Coordinate) (raw : String) (run : Run) :
    Run × Option Resolution :=
  match reference? raw with
  | none => (run, none)
  | some name =>
    if s.options.inlineVersions then (run, none)
    else match s.resolve index name with
      | .ok resolution => (run, resolution)
      | .error error => (run.warn ⟨index, c, some name, error.message⟩, none)

def version (s : Setting) (index : Nat) (c : Coordinate) (raw wanted : String) (run : Run) : Run :=
  match resolution? s index c raw run with
  | (run, none) => inPlace run index c raw raw wanted
  | (run, some ⟨site, current⟩) =>
    -- Only properties of the project are written.
    if site.outside then inPlace run index c raw current wanted
    else match run.locks.get? site with
      | none =>
        let locked := (run.note
          s!"Overriding {c} to {wanted} through property {site.name}").lock site wanted .override
        if current = wanted then locked
        else locked.push (.setProperty site.owner site.name wanted)
      -- The first lock of a property stays, so another version has to be written in place.
      | some lock =>
        if lock.value = wanted then run else inPlace run index c raw current wanted

/-- Of several declarations of a coordinate in a module, the first with a version is overridden. -/
def declaration (s : Setting) (index : Nat) (run : Run) (d : Declaration) : Run :=
  match s.policy.dependencyOverride? d.coordinate, d.version with
  | some wanted, some raw =>
    if s.project.owns d.coordinate || run.overridden.contains (index, d.coordinate) then run
    else version s index d.coordinate raw wanted (run.settle index d.coordinate)
  | _, _ => run

def moduleEntries (s : Setting) (run : Run) (entry : Module × Nat) : Run :=
  let (m, index) := entry
  if s.policy.ignoresModule m then run
  else m.declarations.foldl (declaration s index) (m.properties.foldl (property s m index) run)

def all (s : Setting) (run : Run) : Run := s.project.indexed.foldl (moduleEntries s) run

end VersionAlignment.Override
