import VersionAlignment.Log

set_option autoImplicit false

namespace VersionAlignment

abbrev Session (ε : Type) (m : Type → Type) : Type → Type := ExceptT ε (StateT Log m)

namespace Session

variable {ε δ α : Type} {m : Type → Type} [Monad m]

def logAll (lines : Log) : Session ε m Unit := modify (· ++ lines)

def log (level : Level) (message : String) : Session ε m Unit := logAll [⟨level, message⟩]

def perform (action : m α) : Session ε m α := ExceptT.lift (StateT.lift action)

def ofExcept : Except ε α → Session ε m α
  | .ok a => pure a
  | .error e => throw e

def adapt (f : δ → ε) (session : Session δ m α) : Session ε m α := ExceptT.adapt f session

def outcome (session : Session ε m α) : m (Except ε α × Log) := session.run.run []

end Session

end VersionAlignment
