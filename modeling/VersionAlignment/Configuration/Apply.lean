import VersionAlignment.Configuration.KeyPath
import VersionAlignment.Log
import VersionAlignment.Options.Key
import VersionAlignment.Text.Blank
import VersionAlignment.Text.Split

set_option autoImplicit false

namespace VersionAlignment

inductive ConfigurationError
  | malformed
  | flag (key : String) (found : Configuration.Misfit)
  | text (key : String) (found : Configuration.Misfit)
  deriving DecidableEq, Repr

namespace ConfigurationError

def misfitMessage (key : String) (found : Configuration.Misfit) (wanted : String) : String :=
  s!"Invalid value for configuration key `{key}`: invalid type: {found.message}, " ++
    s!"expected {wanted}"

def message : ConfigurationError → String
  | malformed => "Error while loading configuration: the file is not a TOML document"
  | flag key found => misfitMessage key found "a boolean"
  | text key found => misfitMessage key found "a string"

end ConfigurationError

namespace Flag

def key : Flag → String
  | doNotDowngrade => "do_not_downgrade"
  | inlineVersions => "inline_versions"
  | injectExternalProperties => "inject_external_properties"
  | injectTransitiveDependencies => "inject_transitive_dependencies"

end Flag

namespace EntryList

def key : EntryList → String
  | ignoreScopes => "ignore_scopes"
  | ignoreStreams => "ignore_streams"
  | unignoreStreams => "unignore_streams"
  | ignoreProperties => "ignore_properties"
  | ignorePropertiesPrefixedWith => "ignore_properties_prefixed_with"
  | ignoreModules => "ignore_modules"
  | overrideProperties => "override_properties"
  | overrideDependencies => "override_dependencies"

end EntryList

namespace OptionKey

def all : List OptionKey :=
  Flag.all.map .flag ++ EntryList.all.map .entries ++ [.localRepository]

def key : OptionKey → String
  | flag f => f.key
  | entries l => l.key
  | localRepository => "local_repository"

def ofKey? (key : String) : Option OptionKey := all.find? (·.key == key)

end OptionKey

namespace Configuration

def splitEntries (s : String) : List String :=
  ((Text.split ',' s).map Text.trim).filter (· != "")

def Value.toEntries : Value → Except Misfit (List String)
  | .list values => values.mapM Value.toText
  | v => v.toText.map splitEntries

def fill (options : Options) (value : Value) : OptionKey → Except ConfigurationError Options
  | .flag f =>
    if options.flag f = f.default then
      match value.toFlag with
      | .ok b => .ok (options.setFlag b f)
      | .error found => .error (.flag f.key found)
    else .ok options
  | .entries l =>
    if (options.entries l).isEmpty then
      match value.toEntries with
      | .ok es => .ok (options.setEntries es l)
      | .error found => .error (.text l.key found)
    else .ok options
  | .localRepository =>
    if options.localRepository.isNone then
      match value.toText with
      | .ok s => .ok { options with localRepository := some s }
      | .error found => .error (.text OptionKey.localRepository.key found)
    else .ok options

/-- Fills in options from entries in order. An option that does not have its default value any more
stays as it is. -/
def apply (options : Options) : Entries → Except ConfigurationError Options × Log
  | [] => (.ok options, [])
  | (key, value) :: rest =>
    match OptionKey.ofKey? key with
    | none =>
      let (filled, log) := apply options rest
      (filled, ⟨.warn, s!"Ignoring unknown configuration key `{key}`"⟩ :: log)
    -- A failure ends the run, and drops the lines that would follow.
    | some option =>
      match fill options value option with
      | .ok options => apply options rest
      | .error e => (.error e, [])

end Configuration

end VersionAlignment
