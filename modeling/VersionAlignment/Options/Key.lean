import VersionAlignment.Options

set_option autoImplicit false

namespace VersionAlignment

inductive Flag
  | doNotDowngrade
  | inlineVersions
  | injectExternalProperties
  | injectTransitiveDependencies
  deriving DecidableEq, Repr

inductive EntryList
  | ignoreScopes
  | ignoreStreams
  | unignoreStreams
  | ignoreProperties
  | ignorePropertiesPrefixedWith
  | ignoreModules
  | overrideProperties
  | overrideDependencies
  deriving DecidableEq, Repr

inductive OptionKey
  | flag (f : Flag)
  | entries (l : EntryList)
  | localRepository
  deriving DecidableEq, Repr

def Flag.all : List Flag :=
  [.doNotDowngrade, .inlineVersions, .injectExternalProperties, .injectTransitiveDependencies]

def EntryList.all : List EntryList :=
  [.ignoreScopes, .ignoreStreams, .unignoreStreams, .ignoreProperties,
    .ignorePropertiesPrefixedWith, .ignoreModules, .overrideProperties, .overrideDependencies]

namespace Options

def flag (o : Options) : Flag → Bool
  | .doNotDowngrade => o.doNotDowngrade
  | .inlineVersions => o.inlineVersions
  | .injectExternalProperties => o.injectExternalProperties
  | .injectTransitiveDependencies => o.injectTransitiveDependencies

def setFlag (o : Options) (value : Bool) : Flag → Options
  | .doNotDowngrade => { o with doNotDowngrade := value }
  | .inlineVersions => { o with inlineVersions := value }
  | .injectExternalProperties => { o with injectExternalProperties := value }
  | .injectTransitiveDependencies => { o with injectTransitiveDependencies := value }

def entries (o : Options) : EntryList → List String
  | .ignoreScopes => o.ignoreScopes
  | .ignoreStreams => o.ignoreStreams
  | .unignoreStreams => o.unignoreStreams
  | .ignoreProperties => o.ignoreProperties
  | .ignorePropertiesPrefixedWith => o.ignorePropertiesPrefixedWith
  | .ignoreModules => o.ignoreModules
  | .overrideProperties => o.overrideProperties
  | .overrideDependencies => o.overrideDependencies

def setEntries (o : Options) (value : List String) : EntryList → Options
  | .ignoreScopes => { o with ignoreScopes := value }
  | .ignoreStreams => { o with ignoreStreams := value }
  | .unignoreStreams => { o with unignoreStreams := value }
  | .ignoreProperties => { o with ignoreProperties := value }
  | .ignorePropertiesPrefixedWith => { o with ignorePropertiesPrefixedWith := value }
  | .ignoreModules => { o with ignoreModules := value }
  | .overrideProperties => { o with overrideProperties := value }
  | .overrideDependencies => { o with overrideDependencies := value }

@[simp] theorem flag_setFlag (o : Options) (value : Bool) (f g : Flag) :
    (o.setFlag value f).flag g = if g = f then value else o.flag g := by
  cases f <;> cases g <;> rfl

@[simp] theorem entries_setFlag (o : Options) (value : Bool) (f : Flag) (l : EntryList) :
    (o.setFlag value f).entries l = o.entries l := by
  cases f <;> cases l <;> rfl

@[simp] theorem localRepository_setFlag (o : Options) (value : Bool) (f : Flag) :
    (o.setFlag value f).localRepository = o.localRepository := by
  cases f <;> rfl

@[simp] theorem entries_setEntries (o : Options) (value : List String) (l k : EntryList) :
    (o.setEntries value l).entries k = if k = l then value else o.entries k := by
  cases l <;> cases k <;> rfl

@[simp] theorem flag_setEntries (o : Options) (value : List String) (l : EntryList) (f : Flag) :
    (o.setEntries value l).flag f = o.flag f := by
  cases l <;> cases f <;> rfl

@[simp] theorem localRepository_setEntries (o : Options) (value : List String) (l : EntryList) :
    (o.setEntries value l).localRepository = o.localRepository := by
  cases l <;> rfl

end Options

def Flag.default (f : Flag) : Bool := ({} : Options).flag f

end VersionAlignment
