import VersionAlignment.Alignment.Declared
import VersionAlignment.Alignment.Transitive

set_option autoImplicit false

namespace VersionAlignment

structure Report where
  changes : ChangeSet := {}
  notCovered : List Coordinate := []
  unaligned : List Unaligned := []
  warnings : List Warning := []
  deriving DecidableEq, Repr

def Report.isAligned (r : Report) : Bool := r.changes.isEmpty && r.unaligned.isEmpty

structure GraphError where
  owner : String
  cause : String
  deriving DecidableEq, Repr

def GraphError.message (e : GraphError) : String :=
  s!"Could not build the dependency graph of {e.owner}: {e.cause}"

def Run.toReport (run : Run) : Report :=
  ⟨run.changes, run.notCovered, run.unaligned, run.warnings⟩

namespace Candidates

def gather (s : Setting) : Candidates → List Module → Except GraphError Candidates
  | candidates, [] => .ok candidates
  | candidates, m :: rest =>
    if s.policy.ignoresModule m then gather s candidates rest
    else match s.given.graph m with
      | .error cause => .error ⟨m.text, cause⟩
      | .ok graph => gather s (visit s candidates graph) rest

end Candidates

def Report.extend (r : Report) (t : TransitiveOutcome) : Report :=
  { r with
    changes := r.changes.extend t.injections
    notCovered := Sorted.union r.notCovered t.notCovered
    unaligned := r.unaligned ++ t.unaligned }

def align (project : Project) (given : Surroundings) (options : Options) :
    Except GraphError Report × Log :=
  let s : Setting := ⟨project, Policy.ofOptions options, options, given⟩
  let run := Run.declared s
  let report := run.toReport
  let log := Policy.log options ++ run.log ++ [⟨.info,
    s!"Decided {report.changes.size} changes for declared dependencies, " ++
      s!"{report.notCovered.length} not covered by the channel"⟩]
  -- Graphs are not asked for unless transitive dependencies are wanted.
  if options.injectTransitiveDependencies then
    match Candidates.gather s [] project.modules with
    | .error error => (.error error, log)
    | .ok candidates =>
      let outcome := TransitiveOutcome.ofCandidates s candidates
      (.ok (report.extend outcome), log ++ [⟨.info,
        s!"Injecting {outcome.injections.length} managed dependencies " ++
          "for transitive dependencies"⟩])
  else (.ok report, log)

end VersionAlignment
