set_option autoImplicit false

namespace VersionAlignment

structure Options where
  doNotDowngrade : Bool := false
  inlineVersions : Bool := false
  injectExternalProperties : Bool := true
  injectTransitiveDependencies : Bool := true
  ignoreScopes : List String := []
  ignoreStreams : List String := []
  unignoreStreams : List String := []
  ignoreProperties : List String := []
  ignorePropertiesPrefixedWith : List String := []
  ignoreModules : List String := []
  overrideProperties : List String := []
  overrideDependencies : List String := []
  localRepository : Option String := none
  deriving DecidableEq, Repr

end VersionAlignment
