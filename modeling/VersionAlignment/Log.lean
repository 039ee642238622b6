set_option autoImplicit false

namespace VersionAlignment

/-- The levels of log lines, the most severe first. -/
inductive Level
  | error
  | warn
  | info
  deriving DecidableEq, Repr

def Level.name : Level → String
  | .error => "ERROR"
  | .warn => "WARN"
  | .info => "INFO"

def Level.severity : Level → Nat
  | .error => 0
  | .warn => 1
  | .info => 2

structure LogLine where
  level : Level
  message : String
  deriving DecidableEq, Repr

abbrev Log := List LogLine

def LogLine.text (line : LogLine) : String := line.level.name ++ " " ++ line.message

end VersionAlignment
