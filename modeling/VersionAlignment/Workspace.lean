import VersionAlignment.Channel.Load
import VersionAlignment.Configuration.Apply
import VersionAlignment.Configuration.Load
import VersionAlignment.Descriptor.Read
import VersionAlignment.Plan.Read
import VersionAlignment.Plan.Write

set_option autoImplicit false

namespace VersionAlignment

inductive Failure
  | read (error : ReadError)
  | channel (error : ChannelError)
  | configuration (error : ConfigurationError)
  | graph (error : GraphError)
  | write (error : DiskError)
  | notAligned (changes unaligned : Nat)
  deriving Repr

def Failure.message : Failure → String
  | .read error => error.message
  | .channel error => error.message
  | .configuration error => error.message
  | .graph error => error.message
  | .write error => error.message
  | .notAligned changes unaligned =>
    "Project is not aligned with the channel: " ++
      s!"{changes} pending changes, {unaligned} unaligned dependencies"

structure Environment where
  entries : List (String × String) := []
  directory : Path

def Environment.value? (e : Environment) (name : String) : Option String :=
  e.entries.reverse.lookup name

structure Request where
  root : Option Path := none
  project : String := "align-project.toml"
  channel : String := "channel.toml"
  plan : String := "align-plan.toml"
  configuration : String := "channel-align.toml"
  localRepository : Option String := none
  manifest : Option ManifestCoordinate := none
  options : Options := {}

structure Workspace where
  root : Path
  project : String
  channel : String
  plan : String
  repository : Repository
  manifest : Option ManifestCoordinate
  options : Options

def Repository.ofHome (e : Environment) : Except ChannelError Repository :=
  match e.value? "HOME" with
  | some home => .ok ⟨((Path.mk home).join ".m2").join "repository"⟩
  | none => .error .noHome

variable {m : Type → Type} [Monad m]

def Request.configuredOptions (r : Request) (disk : Disk m) (e : Environment) (root : Path) :
    Session ConfigurationError m Options := do
  match ← Session.perform (Configuration.load disk (root.join r.configuration) e.entries) with
  | none => throw .malformed
  | some entries =>
    let (options, log) := Configuration.apply r.options entries
    Session.logAll log
    Session.ofExcept options

def Request.prepare (r : Request) (disk : Disk m) (e : Environment) :
    Session Failure m Workspace := do
  let root := r.root.getD e.directory
  let options ← Session.adapt .configuration (r.configuredOptions disk e root)
  -- The home directory is only looked up where no repository is named.
  let repository ← match r.localRepository.or options.localRepository with
    | some path => pure ⟨root.join path⟩
    | none => Session.adapt .channel (Session.ofExcept (Repository.ofHome e))
  return {
    root, repository, options
    project := r.project
    channel := r.channel
    plan := r.plan
    manifest := r.manifest }

namespace Workspace

def report (w : Workspace) (disk : Disk m) : Session Failure m (Project × Report) := do
  let descriptor ← Session.adapt .read <|
    disk.loadLogged (w.root.join w.project) Descriptor.ofText "build a valid project from"
  let library : Library m := ⟨disk, w.repository, Version.compare⟩
  let manifest ← Session.adapt .channel <|
    library.loadManifest (w.root.join w.channel) w.manifest
  Session.logAll (ChannelIndex.log manifest)
  let index := ChannelIndex.ofManifest manifest
  let given := descriptor.surroundings (fun c _ => index.version? c) Version.compare
  let (outcome, log) := VersionAlignment.align descriptor.project given w.options
  Session.logAll log
  let report ← Session.adapt .graph (Session.ofExcept outcome)
  if !report.warnings.isEmpty then
    Session.log .warn <|
      s!"{report.warnings.length} dependencies could not be aligned, see the warnings above"
  if !report.notCovered.isEmpty then
    Session.log .info s!"{report.notCovered.length} dependencies are not covered by the channel"
  return (descriptor.project, report)

def planPath (w : Workspace) : Path := w.root.join w.plan

def oldPlan? (w : Workspace) (disk : Disk m) : Session Failure m (Option Plan) := do
  if ← Session.perform (disk.isUsed w.planPath) then
    match ← Session.perform (disk.load w.planPath Plan.ofText) with
    | .ok plan => return some plan
    | .error e =>
      Session.log .warn s!"Replacing unreadable plan file: {e.message}"
      return none
  else return none

def align (w : Workspace) (disk : Disk m) : Session Failure m Report := do
  let (project, report) ← w.report disk
  let plan := Plan.ofReport report project
  -- Plans are compared as data, so that an equal plan keeps its layout.
  if (← w.oldPlan? disk) != some plan then
    match ← Session.perform (disk.write w.planPath plan.render) with
    | .ok () => Session.log .info s!"Wrote plan file to {w.planPath.text}"
    | .error e => throw (.write e)
  return report

def changeLines (project : Project) (report : Report) : Log :=
  project.indexed.flatMap fun (m, index) =>
    (report.changes.ofModule index).map fun change =>
      ⟨.info, s!"{m.text}: {change.text}"⟩

def unalignedLine (project : Project) (u : Unaligned) : LogLine :=
  ⟨.info, s!"{project.moduleText u.owner}: {u.coordinate.text} stays at {u.current} " ++
    s!"instead of {u.target} ({u.reason.text})"⟩

def verify (w : Workspace) (disk : Disk m) : Session Failure m Report := do
  let (project, report) ← w.report disk
  if report.isAligned then
    Session.log .info "Project is aligned with the channel"
    return report
  Session.logAll (changeLines project report)
  Session.logAll (report.unaligned.map (unalignedLine project))
  throw (.notAligned report.changes.size report.unaligned.length)

end Workspace

end VersionAlignment
