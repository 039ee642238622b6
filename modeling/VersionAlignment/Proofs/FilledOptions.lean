import Mathlib.Data.List.Nodup
import VersionAlignment.Configuration.Apply
import VersionAlignment.Proofs.GivenArguments

set_option autoImplicit false

namespace VersionAlignment

inductive Choice
  | flag (on : Bool)
  | entries (texts : List String)
  | path (text : Option String)
  deriving DecidableEq

namespace Options

def get (o : Options) : OptionKey → Choice
  | .flag f => .flag (o.flag f)
  | .entries l => .entries (o.entries l)
  | .localRepository => .path o.localRepository

end Options

namespace OptionKey

def default (option : OptionKey) : Choice := ({} : Options).get option

end OptionKey

namespace Options

end Options

namespace CommandLine.PolicyArguments

def choice? (a : PolicyArguments) : OptionKey → Option Choice
  | .flag .doNotDowngrade => if a.switch .doNotDowngrade then some (.flag true) else none
  | .flag .inlineVersions => if a.switch .inlineVersions then some (.flag true) else none
  | .flag .injectExternalProperties =>
    if a.switch .injectExternalProperties then some (.flag false) else none
  | .flag .injectTransitiveDependencies =>
    if a.switch .injectTransitiveDependencies then some (.flag false) else none
  | .entries l => if a.entries l = [] then none else some (.entries (a.entries l))
  | .localRepository => none

variable {a : PolicyArguments} {option : OptionKey} {choice : Choice}

end CommandLine.PolicyArguments

def ConfigurationError.key? : ConfigurationError → Option String
  | malformed => none
  | flag key _ | text key _ => some key

namespace Configuration

def Value.choice (value : Value) : OptionKey → Except ConfigurationError Choice
  | .flag f => (value.toFlag.map .flag).mapError (.flag f.key)
  | .entries l => (value.toEntries.map .entries).mapError (.text l.key)
  | .localRepository =>
    (value.toText.map fun s => .path (some s)).mapError (.text OptionKey.localRepository.key)

variable {o filled : Options} {value : Value} {option : OptionKey} {choice : Choice}
  {e : ConfigurationError} {entries visited rest : Entries}

section

open CommandLine

def settled (a : PolicyArguments) (entries : Entries) (option : OptionKey) :
    Except ConfigurationError Choice :=
  match a.choice? option, entries.lookup option.key with
  | some choice, _ => .ok choice
  | none, some value => value.choice option
  | none, none => .ok option.default

end

end Configuration

end VersionAlignment
