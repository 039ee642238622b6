import VersionAlignment.Change
import VersionAlignment.Log
import VersionAlignment.Options
import VersionAlignment.Project

set_option autoImplicit false

namespace VersionAlignment

inductive PolicyError
  | stream (entry : String)
  | dependencyOverride (entry : String)
  | propertyOverride (entry : String)
  deriving DecidableEq, Repr

def PolicyError.message : PolicyError → String
  | .stream entry => s!"Invalid stream `{entry}`, expected `group:artifact` or `group:*`"
  | .dependencyOverride entry =>
    s!"Invalid dependency override `{entry}`, expected `group:artifact:version`"
  | .propertyOverride entry => s!"Invalid property override `{entry}`, expected `name=value`"

abbrev StreamName := String × String

structure Policy where
  ignoredStreams : List StreamPattern := []
  unignoredStreams : List StreamPattern := []
  ignoredScopes : List String := []
  ignoredProperties : List String := []
  ignoredPropertyPrefixes : List String := []
  ignoredModules : List StreamPattern := []
  propertyOverrides : List (String × String) := []
  dependencyOverrides : List (StreamName × String) := []
  deriving DecidableEq, Repr

namespace Policy

def readStream (entry : String) : Except PolicyError StreamPattern :=
  match StreamPattern.ofText? entry with
  | some pattern => .ok pattern
  | none => .error (.stream entry)

def readDependencyOverride (entry : String) : Except PolicyError (StreamName × String) :=
  match Text.split ':' (Text.trim entry) with
  | [group, artifact, version] =>
    if group = "" ∨ artifact = "" ∨ version = "" then .error (.dependencyOverride entry)
    else .ok ((group, artifact), version)
  | _ => .error (.dependencyOverride entry)

def readPropertyOverride (entry : String) : Except PolicyError (String × String) :=
  match Text.splitOnce? '=' entry with
  | some (name, value) =>
    let name := Text.trim name
    let value := Text.trim value
    if name = "" ∨ value = "" then .error (.propertyOverride entry) else .ok (name, value)
  | none => .error (.propertyOverride entry)

section

variable {ε α : Type}

def wellFormed (read : String → Except ε α) (entries : List String) : List α :=
  entries.filterMap fun entry => (read entry).toOption

def malformed (read : String → Except ε α) (entries : List String) : List ε :=
  entries.filterMap fun entry =>
    match read entry with
    | .error error => some error
    | .ok _ => none

end

/-- Malformed entries have no effect; of two overrides of one name the later one counts. -/
def ofOptions (o : Options) : Policy where
  ignoredStreams := wellFormed readStream o.ignoreStreams
  unignoredStreams := wellFormed readStream o.unignoreStreams
  ignoredScopes := o.ignoreScopes.map Text.trim
  ignoredProperties := o.ignoreProperties.map Text.trim
  ignoredPropertyPrefixes := (o.ignorePropertiesPrefixedWith.map Text.trim).filter (· != "")
  ignoredModules := wellFormed readStream o.ignoreModules
  propertyOverrides := (wellFormed readPropertyOverride o.overrideProperties).reverse
  dependencyOverrides := (wellFormed readDependencyOverride o.overrideDependencies).reverse

def complaints (o : Options) : List PolicyError :=
  malformed readStream o.ignoreStreams ++ malformed readStream o.unignoreStreams ++
    malformed readStream o.ignoreModules ++
    malformed readPropertyOverride o.overrideProperties ++
    malformed readDependencyOverride o.overrideDependencies

def log (o : Options) : Log :=
  (complaints o).map fun error => ⟨.warn, "Skipping override entry: " ++ error.message⟩

def bestMatch? (patterns : List StreamPattern) (c : Coordinate) : Option Nat :=
  ((patterns.filter (·.covers c.group c.artifact)).map StreamPattern.specificity).max?

/-- Some pattern ignores the stream, and no more specific one exempts it. -/
def ignoresStream (policy : Policy) (c : Coordinate) : Bool :=
  match bestMatch? policy.ignoredStreams c, bestMatch? policy.unignoredStreams c with
  | none, _ => false
  | some _, none => true
  | some ignored, some unignored => unignored ≤ ignored

def ignoresScope (policy : Policy) (scope : String) : Bool := policy.ignoredScopes.contains scope

def ignores? (policy : Policy) (c : Coordinate) (scope : String) : Option Reason :=
  if policy.ignoresStream c then some .ignoredStream
  else if policy.ignoresScope scope then some .ignoredScope
  else none

def ignoresProperty (policy : Policy) (name : String) : Bool :=
  policy.ignoredProperties.contains name ||
    policy.ignoredPropertyPrefixes.any fun start => start.toList.isPrefixOf name.toList

def ignoresModule (policy : Policy) (m : Module) : Bool :=
  policy.ignoredModules.any (·.covers m.group m.artifact)

def propertyOverride? (policy : Policy) (name : String) : Option String :=
  policy.propertyOverrides.lookup name

def dependencyOverride? (policy : Policy) (c : Coordinate) : Option String :=
  policy.dependencyOverrides.lookup (c.group, c.artifact)

end Policy

end VersionAlignment
