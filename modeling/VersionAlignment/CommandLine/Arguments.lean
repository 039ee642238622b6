import VersionAlignment.CommandLine.Scan
import VersionAlignment.Options.Key
import VersionAlignment.Text.Split

set_option autoImplicit false

namespace VersionAlignment.CommandLine

inductive Command
  | align
  | verify
  deriving DecidableEq, Repr

def Command.name : Command → String
  | align => "align"
  | verify => "verify"

def Command.ofName? (name : String) : Option Command :=
  [align, verify].find? (·.name == name)

structure Places where
  root : Option String := none
  project : Option String := none
  channel : Option String := none
  plan : Option String := none
  configuration : Option String := none
  localRepository : Option String := none
  manifestGroup : Option String := none
  manifestArtifact : Option String := none
  manifestVersion : Option String := none
  deriving DecidableEq, Repr

structure Arguments where
  places : Places
  command : Command
  options : Options
  deriving DecidableEq, Repr

inductive PlaceOption
  | root
  | project
  | channel
  | plan
  | configuration
  | localRepository
  | manifestGroup
  | manifestArtifact
  | manifestVersion
  deriving DecidableEq, Repr

namespace PlaceOption

def all : List PlaceOption :=
  [root, project, channel, plan, configuration, localRepository, manifestGroup, manifestArtifact,
    manifestVersion]

def name : PlaceOption → String
  | root => "root"
  | project => "project"
  | channel => "channel"
  | plan => "plan"
  | configuration => "config"
  | localRepository => "local-repository"
  | manifestGroup => "manifest-group-id"
  | manifestArtifact => "manifest-artifact-id"
  | manifestVersion => "manifest-version"

def ofLetter? : Char → Option PlaceOption
  | 'r' => some root
  | 'p' => some project
  | 'c' => some channel
  | _ => none

def isPath : PlaceOption → Bool
  | manifestGroup | manifestArtifact | manifestVersion => false
  | _ => true

end PlaceOption

namespace Places

def get (p : Places) : PlaceOption → Option String
  | .root => p.root
  | .project => p.project
  | .channel => p.channel
  | .plan => p.plan
  | .configuration => p.configuration
  | .localRepository => p.localRepository
  | .manifestGroup => p.manifestGroup
  | .manifestArtifact => p.manifestArtifact
  | .manifestVersion => p.manifestVersion

def set (p : Places) (value : String) : PlaceOption → Places
  | .root => { p with root := value }
  | .project => { p with project := value }
  | .channel => { p with channel := value }
  | .plan => { p with plan := value }
  | .configuration => { p with configuration := value }
  | .localRepository => { p with localRepository := value }
  | .manifestGroup => { p with manifestGroup := value }
  | .manifestArtifact => { p with manifestArtifact := value }
  | .manifestVersion => { p with manifestVersion := value }

def give? (p : Places) (option : PlaceOption) (value : String) : Option Places :=
  if (p.get option).isSome || (option.isPath && value == "") then none
  else some (p.set value option)

end Places

/-- The switch that gives a flag the value it does not have by default. -/
def switchName : Flag → String
  | .doNotDowngrade => "do-not-downgrade"
  | .inlineVersions => "inline-versions"
  | .injectExternalProperties => "no-inject-external-properties"
  | .injectTransitiveDependencies => "no-inject-transitive-dependencies"

def entriesName : EntryList → String
  | .ignoreScopes => "ignore-scopes"
  | .ignoreStreams => "ignore-streams"
  | .unignoreStreams => "unignore-streams"
  | .ignoreProperties => "ignore-properties"
  | .ignorePropertiesPrefixedWith => "ignore-properties-prefixed-with"
  | .ignoreModules => "ignore-modules"
  | .overrideProperties => "override-properties"
  | .overrideDependencies => "override-dependencies"

structure PolicyArguments where
  switch : Flag → Bool := fun _ => false
  entries : EntryList → List String := fun _ => []

namespace PolicyArguments

def giveSwitch? (a : PolicyArguments) (f : Flag) : Option PolicyArguments :=
  if a.switch f then none else some { a with switch := fun g => g = f || a.switch g }

/-- Adds the entries between the commas of a value, also the empty ones. -/
def addEntries (a : PolicyArguments) (l : EntryList) (value : String) : PolicyArguments :=
  { a with entries := fun k => if k = l then a.entries k ++ Text.split ',' value else a.entries k }

def toOptions (a : PolicyArguments) : Options where
  doNotDowngrade := a.switch .doNotDowngrade
  inlineVersions := a.switch .inlineVersions
  injectExternalProperties := !a.switch .injectExternalProperties
  injectTransitiveDependencies := !a.switch .injectTransitiveDependencies
  ignoreScopes := a.entries .ignoreScopes
  ignoreStreams := a.entries .ignoreStreams
  unignoreStreams := a.entries .unignoreStreams
  ignoreProperties := a.entries .ignoreProperties
  ignorePropertiesPrefixedWith := a.entries .ignorePropertiesPrefixedWith
  ignoreModules := a.entries .ignoreModules
  overrideProperties := a.entries .overrideProperties
  overrideDependencies := a.entries .overrideDependencies
  localRepository := none

end PolicyArguments

def helpCommand : String := "help"

def programGrammar : Grammar PlaceOption Places where
  long? name :=
    if name = "help" then some .help
    else if name = "version" then some .version
    else (PlaceOption.all.find? (·.name == name)).map .value
  short? c :=
    if c = 'h' then some .help
    else if c = 'V' then some .version
    else (PlaceOption.ofLetter? c).map .value
  giveValue? := Places.give?
  giveSwitch? := fun _ _ => none
  isCommand name := (Command.ofName? name).isSome || name == helpCommand

inductive CommandOption
  | flag (f : Flag)
  | entries (l : EntryList)
  deriving DecidableEq, Repr

def commandGrammar : Grammar CommandOption PolicyArguments where
  long? name :=
    if name = "help" then some .help
    else match Flag.all.find? (switchName · == name) with
      | some f => some (.switch (.flag f))
      | none => (EntryList.all.find? (entriesName · == name)).map fun l => .value (.entries l)
  short? c := if c = 'h' then some .help else none
  giveValue?
    | a, .entries l, value => some (a.addEntries l value)
    | _, .flag _, _ => none
  giveSwitch?
    | a, .flag f => a.giveSwitch? f
    | _, .entries _ => none
  isCommand _ := false

def helpOn : List String → Refusal
  | [] => .help
  | [name] => if programGrammar.isCommand name then .help else .usage
  | _ => .usage

def readOptions (words : List String) : Except Refusal Options := do
  let (progress, _) ← scan commandGrammar { settings := {} } words
  return (← settle commandGrammar progress).toOptions

def Arguments.ofWords (words : List String) : Except Refusal Arguments := do
  let (progress, invocation) ← scan programGrammar { settings := {} } words
  match invocation with
  | none => .error .usage
  | some ⟨name, rest⟩ =>
    match Command.ofName? name with
    | none => .error (helpOn rest)
    | some command =>
      -- An option before the command is taken in only after those that follow it.
      let options ← readOptions rest
      let places ← settle programGrammar progress
      return { places, command, options }

end VersionAlignment.CommandLine
