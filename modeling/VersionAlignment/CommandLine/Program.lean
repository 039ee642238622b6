import VersionAlignment.CommandLine.Arguments
import VersionAlignment.Workspace

set_option autoImplicit false

namespace VersionAlignment.CommandLine

def logVariable : String := "RUST_LOG"

inductive Threshold
  | off
  | upTo (level : Level)
  deriving DecidableEq, Repr

namespace Threshold

def ofWord (word : String) : Threshold :=
  match word.toLower with
  | "" | "error" => .upTo .error
  | "warn" => .upTo .warn
  | "info" | "debug" | "trace" => .upTo .info
  | _ => .off

def ofEnvironment (e : Environment) : Threshold :=
  ((e.value? logVariable).map ofWord).getD (.upTo .info)

def shows (t : Threshold) (line : LogLine) : Bool :=
  match t with
  | off => false
  | upTo level => line.level.severity ≤ level.severity

end Threshold

def Arguments.request (a : Arguments) (manifest : Option ManifestCoordinate) : Request :=
  let r : Request := {}
  { r with
    root := a.places.root.map Path.mk
    project := a.places.project.getD r.project
    channel := a.places.channel.getD r.channel
    plan := a.places.plan.getD r.plan
    configuration := a.places.configuration.getD r.configuration
    localRepository := a.places.localRepository
    options := a.options
    manifest }

variable {m : Type → Type} [Monad m]

def execute (a : Arguments) (disk : Disk m) (e : Environment) : Session Failure m Report := do
  let { manifestGroup, manifestArtifact, manifestVersion, .. } := a.places
  let manifest ← Session.adapt .channel <| Session.ofExcept <|
    ManifestCoordinate.ofParts manifestGroup manifestArtifact manifestVersion
  Session.logAll (ManifestCoordinate.partsLog manifestGroup manifestArtifact manifestVersion)
  let workspace ← (a.request manifest).prepare disk e
  match a.command with
  | .align => workspace.align disk
  | .verify => workspace.verify disk

structure Ending where
  exitCode : Nat
  log : Log := []
  deriving DecidableEq, Repr

def Ending.ofOutcome (outcome : Except Failure Report) (log : Log) : Ending :=
  match outcome with
  | .ok _ => ⟨0, log⟩
  | .error e => ⟨1, log ++ [⟨.error, e.message⟩]⟩

def Ending.ofRefusal : Refusal → Ending
  | .usage => ⟨2, []⟩
  | .help | .version => ⟨0, []⟩

def run (a : Arguments) (disk : Disk m) (e : Environment) : m Ending := do
  let (outcome, log) ← Session.outcome (execute a disk e)
  let ending := Ending.ofOutcome outcome log
  return { ending with log := ending.log.filter (Threshold.ofEnvironment e).shows }

end VersionAlignment.CommandLine
