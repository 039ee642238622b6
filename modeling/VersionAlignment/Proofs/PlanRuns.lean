import VersionAlignment.Proofs.ManifestRuns
import VersionAlignment.Proofs.PlanText
import VersionAlignment.Workspace

set_option autoImplicit false

namespace VersionAlignment

open FileTree Session

variable {tree after : FileTree} {current : FileTree.Place}

namespace Workspace

inductive Input (w : Workspace) (current : FileTree.Place) (tree : FileTree) : Path → Prop
  | project : Input w current tree (w.root.join w.project)
  | manifest {p : Path} :
      Library.Consults w.repository current tree (w.root.join w.channel) w.manifest p →
      Input w current tree p

def project? (w : Workspace) (current : FileTree.Place) (tree : FileTree) :
    Except ReadError Project :=
  (tree.load current (w.root.join w.project) Descriptor.ofText).map (·.project)

variable {w : Workspace}

theorem repeats_report (stays : ∀ p, w.Input current tree p → tree.Stays after current p)
    (agrees : ∀ c, Library.Resolves current tree (w.root.join w.channel) w.manifest c →
      w.repository.Agrees Version.compare current tree after c) :
    Repeats tree after (fun reported => w.project? current tree = .ok reported.1)
      (w.report (FileTree.disk current)) := by
  unfold report
  refine .bind (.adapt _ (.loadLogged (stays _ .project) _)) fun descriptor loads => ?_
  have project : w.project? current tree = .ok descriptor.project := by
    rw [project?, loads]
    rfl
  have manifests := Library.repeats_loadManifest (fun p consulted => stays p (.manifest consulted))
    agrees
  refine .bind (.adapt _ manifests) fun manifest _ => ?_
  refine .bind (.logAll _) fun _ _ => ?_
  refine .bind (.logAll _) fun _ _ => ?_
  refine .bind (.adapt _ (.ofExcept fun _ _ => trivial)) fun report _ => ?_
  have covered : Repeats tree after (fun reported => w.project? current tree = .ok reported.1) (do
      if !report.notCovered.isEmpty then
        Session.log .info s!"{report.notCovered.length} dependencies are not covered by the channel"
      return (descriptor.project, report) :
        Session Failure (StateM FileTree) (Project × Report)) := by
    simp only
    split
    · exact .bind (.logAll _) fun _ _ => .pure project
    · exact .pure project
  simp only
  split
  · exact .bind (.logAll _) fun _ _ => covered
  · exact covered

theorem runOn_oldPlan? (w : Workspace) (current : FileTree.Place) (log : Log) (tree : FileTree) :
    ∃ log', (w.oldPlan? (FileTree.disk current)).runOn log tree =
      ((.ok (tree.load current w.planPath Plan.ofText).toOption, log'), tree) := by
  unfold oldPlan?
  rw [runOn_perform_bind, run_isUsed]
  cases used : tree.kind current w.planPath with
  | none =>
    -- What is not there cannot be read either.
    have unread : (tree.load current w.planPath Plan.ofText).toOption = none := by
      cases reads : tree.read current w.planPath with
      | error e =>
        rw [load, text, reads]
        rfl
      | ok bytes =>
        rw [kind_of_read reads] at used
        cases used
    exact ⟨log, by rw [unread]; rfl⟩
  | some kind =>
    simp only [Option.isSome_some, if_true]
    rw [runOn_perform_bind, run_load]
    cases tree.load current w.planPath Plan.ofText with
    | ok plan => exact ⟨log, rfl⟩
    | error e => exact ⟨_, rfl⟩

theorem runOn_align_kept {project : Project} {report : Report} {log log' : Log}
    (reported : (w.report (FileTree.disk current)).runOn log tree =
      ((.ok (project, report), log'), tree))
    (kept : tree.load current w.planPath Plan.ofText = .ok (Plan.ofReport report project)) :
    ∃ log'', (w.align (FileTree.disk current)).runOn log tree = ((.ok report, log''), tree) := by
  obtain ⟨log'', old⟩ := w.runOn_oldPlan? current log' tree
  refine ⟨log'', ?_⟩
  unfold align
  rw [runOn_bind_ok reported]
  simp only
  rw [runOn_bind_ok old, kept]
  simp only [Except.toOption, bne_self_eq_false, Bool.false_eq_true, if_false]
  rfl

theorem runOn_align_written {project : Project} {report : Report} {log log' : Log}
    {written : Except DiskError Unit}
    (reported : (w.report (FileTree.disk current)).runOn log tree =
      ((.ok (project, report), log'), tree))
    (other : tree.load current w.planPath Plan.ofText ≠ .ok (Plan.ofReport report project))
    (writes : tree.write current w.planPath (Plan.ofReport report project).render =
      (written, after)) :
    ∃ log'', (w.align (FileTree.disk current)).runOn log tree =
      (((written.mapError .write).map fun _ => report, log''), after) := by
  obtain ⟨log'', old⟩ := w.runOn_oldPlan? current log' tree
  have different : ((tree.load current w.planPath Plan.ofText).toOption !=
      some (Plan.ofReport report project)) = true := by
    rw [bne_iff_ne]
    cases loads : tree.load current w.planPath Plan.ofText with
    | error e => exact nofun
    | ok plan => exact fun same => other (by rw [loads, Option.some.inj same])
  unfold align
  rw [runOn_bind_ok reported]
  simp only
  rw [runOn_bind_ok old, if_pos different, runOn_perform_bind, run_write, writes]
  cases written with
  | ok => exact ⟨_, rfl⟩
  | error e => exact ⟨_, rfl⟩

theorem align_cases (w : Workspace) (current : FileTree.Place) (tree : FileTree) :
    (∃ e log, (w.report (FileTree.disk current)).outcome.run tree = ((.error e, log), tree) ∧
      (w.align (FileTree.disk current)).outcome.run tree = ((.error e, log), tree)) ∨
    ∃ project report log log',
      (w.report (FileTree.disk current)).outcome.run tree = ((.ok (project, report), log), tree) ∧
      w.project? current tree = .ok project ∧
      (tree.load current w.planPath Plan.ofText = .ok (Plan.ofReport report project) ∧
          (w.align (FileTree.disk current)).outcome.run tree = ((.ok report, log'), tree) ∨
        tree.load current w.planPath Plan.ofText ≠ .ok (Plan.ofReport report project) ∧
          ∃ written after,
            tree.write current w.planPath (Plan.ofReport report project).render =
              (written, after) ∧
            (w.align (FileTree.disk current)).outcome.run tree =
              (((written.mapError .write).map fun _ => report, log'), after)) := by
  have reports : Repeats tree tree (fun reported => w.project? current tree = .ok reported.1)
      (w.report (FileTree.disk current)) :=
    repeats_report (fun p input bytes reads => reads) fun c resolves => .refl _ c
  obtain ⟨outcome, log, reported, found⟩ := reports []
  cases outcome with
  | error e => exact .inl ⟨e, log, reported, runOn_bind_error reported⟩
  | ok pair =>
    obtain ⟨project, report⟩ := pair
    have described : w.project? current tree = .ok project := (found _ rfl).1
    by_cases kept : tree.load current w.planPath Plan.ofText = .ok (Plan.ofReport report project)
    · obtain ⟨log', runs⟩ := runOn_align_kept reported kept
      exact .inr ⟨project, report, log, log', reported, described, .inl ⟨kept, runs⟩⟩
    · obtain ⟨log', runs⟩ := runOn_align_written reported kept rfl
      exact .inr ⟨project, report, log, log', reported, described, .inr ⟨kept, _, _, rfl, runs⟩⟩

theorem eq_of_align_error {e : Failure} {log : Log}
    (fails : (w.align (FileTree.disk current)).outcome.run tree = ((.error e, log), after)) :
    after = tree := by
  rcases w.align_cases current tree with
    ⟨e, log, -, runs⟩ | ⟨project, report, log, log', -, -, ends⟩
  · cases fails.symm.trans runs
    rfl
  rcases ends with ⟨-, runs⟩ | ⟨-, written, after, writes, runs⟩
  · cases fails.symm.trans runs
  · cases written with
    | ok => cases fails.symm.trans runs
    | error e =>
      cases fails.symm.trans runs
      exact write_eq_error writes

theorem load_written {plan : Plan}
    (writes : tree.write current w.planPath plan.render = (.ok (), after)) :
    after.load current w.planPath Plan.ofText = .ok plan := by
  obtain ⟨place, -, -, -, reads⟩ := write_eq_ok writes
  have version : plan.table.lookup "version" = some (.integer 1) := rfl
  rw [load_of_text (text_of_read reads), Plan.ofText, Plan.read?_render]
  simp only [version, Plan.ofTable?_table]

/-- The plan is in none of the files that are read, and the versions that are listed stay the same.
A plan can only become a version where an artifact has its manifests outside its directory, that is
where it is given from the root. -/
structure PlanApart (w : Workspace) (current : FileTree.Place) (tree after : FileTree) : Prop where
  files : ∀ p, w.Input current tree p → after.place? current p ≠ after.place? current w.planPath
  versions : ∀ c, w.manifest = some c → Path.startsAtRoot c.artifact = true →
    w.repository.latestOn? Version.compare current after c.group c.artifact =
      w.repository.latestOn? Version.compare current tree c.group c.artifact

theorem repeats_report_of_write (named : ∀ name ∈ current, Path.IsName name) {text : String}
    (writes : tree.write current w.planPath text = (.ok (), after))
    (apart : w.PlanApart current tree after) :
    Repeats tree after (fun reported => w.project? current tree = .ok reported.1)
      (w.report (FileTree.disk current)) := by
  obtain ⟨place, rfl, file, leads, -⟩ := write_eq_ok writes
  have other (p : Path) (input : w.Input current tree p) :
      (tree.put place (.file text.toUTF8)).place? current p ≠ some place :=
    leads ▸ apart.files p input
  refine repeats_report (fun p input bytes => read_put_of_apart file (other p input)) ?_
  intro c resolves
  exact Library.agrees_put apart.versions (isName_of_place? named leads) file
    (fun p consulted => other p (.manifest consulted)) resolves

/-- A run without a report leaves everything as it was. A run with a report leaves its plan, in the
layout that the file has if the plan is there already, and then the next run has the same report and
leaves everything as it is. -/
theorem align_repeats (w : Workspace) (current : FileTree.Place) (tree : FileTree)
    (named : ∀ name ∈ current, Path.IsName name) :
    (∀ e log left, (w.report (FileTree.disk current)).outcome.run tree = ((.error e, log), left) →
      (w.align (FileTree.disk current)).outcome.run tree = ((.error e, log), tree)) ∧
    ∀ report log after,
      (w.align (FileTree.disk current)).outcome.run tree = ((.ok report, log), after) →
      (∃ project, w.project? current tree = .ok project ∧
        after.load current w.planPath Plan.ofText = .ok (Plan.ofReport report project) ∧
        (tree.load current w.planPath Plan.ofText = .ok (Plan.ofReport report project) →
          after = tree)) ∧
      (w.PlanApart current tree after →
        ∃ log', (w.align (FileTree.disk current)).outcome.run after =
          ((.ok report, log'), after)) := by
  rcases w.align_cases current tree with
    ⟨e, log, failed, runs⟩ | ⟨project, report, log, log', reported, described, ends⟩
  · constructor
    · intro e' log' left fails
      cases fails.symm.trans failed
      exact runs
    · intro report log' after aligned
      cases aligned.symm.trans runs
  constructor
  · intro e log' left fails
    cases fails.symm.trans reported
  intro report' log'' after aligned
  rcases ends with ⟨kept, runs⟩ | ⟨other, written, after', writes, runs⟩
  · cases aligned.symm.trans runs
    exact ⟨⟨project, described, kept, fun _ => rfl⟩, fun _ => ⟨log', aligned⟩⟩
  · cases written with
    | error e => cases aligned.symm.trans runs
    | ok =>
      cases aligned.symm.trans runs
      have left := load_written writes
      refine ⟨⟨project, described, left, fun same => absurd same other⟩, fun apart => ?_⟩
      -- The second run reads the files that the first one has read, and finds its plan.
      obtain ⟨outcome, log, reported', again⟩ := repeats_report_of_write named writes apart []
      cases reported'.symm.trans reported
      exact runOn_align_kept (again _ rfl).2 left

def acmeWorkspace : Workspace where
  root := ⟨"/work"⟩
  project := "project.toml"
  channel := "channel.toml"
  plan := "plan.toml"
  repository := ⟨⟨"/repository"⟩⟩
  manifest := none
  options := { injectTransitiveDependencies := false }

def acmeFiles : FileTree where
  entries := [
    (["work"], .directory),
    (["work", "project.toml"], .file
      ("[[modules]]\nexecution_root = true\ngroup_id = \"a\"\nartifact_id = \"b\"\n" ++
        "version = \"1\"\n[[modules.dependencies]]\ngroup_id = \"c\"\nartifact_id = \"d\"\n" ++
        "version = \"1\"").toUTF8),
    (["work", "channel.toml"], .file "manifest.path = \"manifest.toml\"".toUTF8),
    (["work", "manifest.toml"], .file
      "[[streams]]\ngroup_id = \"c\"\nartifact_id = \"*\"\nversion = \"2\"".toUTF8),
    (["work", "plan.toml"], .file "unreadable".toUTF8)]

theorem align_repeats_acme :
    (∀ name ∈ ["work"], Path.IsName name) ∧
    (∃ e log, (acmeWorkspace.report (FileTree.disk ["work"])).outcome.run {} =
        ((.error e, log), {}) ∧
      (acmeWorkspace.align (FileTree.disk ["work"])).outcome.run {} = ((.error e, log), {})) ∧
    ∃ report log after,
      (acmeWorkspace.align (FileTree.disk ["work"])).outcome.run acmeFiles =
        ((.ok report, log), after) ∧
      acmeWorkspace.PlanApart ["work"] acmeFiles after ∧
      (∃ project, acmeWorkspace.project? ["work"] acmeFiles = .ok project ∧
        after.load ["work"] acmeWorkspace.planPath Plan.ofText =
          .ok (Plan.ofReport report project) ∧
        (acmeFiles.load ["work"] acmeWorkspace.planPath Plan.ofText =
          .ok (Plan.ofReport report project) → after = acmeFiles)) ∧
      ∃ log', (acmeWorkspace.align (FileTree.disk ["work"])).outcome.run after =
        ((.ok report, log'), after) := by
  have named : ∀ name ∈ ["work"], Path.IsName name := by
    simp [Path.IsName]
  -- Three files are read, and the plan is none of them.
  have checked : ∃ report log after,
      (acmeWorkspace.align (FileTree.disk ["work"])).outcome.run acmeFiles =
        ((.ok report, log), after) ∧
      ∀ file ∈ ["/work/project.toml", "/work/channel.toml", "/work/manifest.toml"],
        after.place? ["work"] ⟨file⟩ ≠ after.place? ["work"] acmeWorkspace.planPath := by
    have succeeds :
        let result := (acmeWorkspace.align (FileTree.disk ["work"])).outcome.run acmeFiles
        result.1.1.toOption.isSome = true ∧
          ∀ file ∈ ["/work/project.toml", "/work/channel.toml", "/work/manifest.toml"],
            result.2.place? ["work"] ⟨file⟩ ≠ result.2.place? ["work"] acmeWorkspace.planPath := by
      decide +kernel
    generalize (acmeWorkspace.align (FileTree.disk ["work"])).outcome.run acmeFiles = result
      at succeeds ⊢
    obtain ⟨⟨outcome, log⟩, after⟩ := result
    cases outcome with
    | error e => cases succeeds.1
    | ok report => exact ⟨report, log, after, rfl, succeeds.2⟩
  obtain ⟨report, log, after, runs, apart⟩ := checked
  have reference : ((acmeFiles.load ["work"] (acmeWorkspace.root.join acmeWorkspace.channel)
      Channel.ofText).map fun channel => channel.manifest.path).toOption =
        some (some "manifest.toml") := by
    decide +kernel
  have separate : acmeWorkspace.PlanApart ["work"] acmeFiles after := by
    refine ⟨fun p input => ?_, nofun⟩
    cases input with
    | project => exact apart _ (by decide +kernel)
    | manifest consulted =>
      cases consulted with
      | channel => exact apart _ (by decide +kernel)
      | path loads path =>
        rw [loads] at reference
        have named : "manifest.toml" = _ :=
          Option.some.inj ((Option.some.inj reference).symm.trans path)
        rw [← named]
        exact apart _ (by decide +kernel)
      | coordinate resolves candidate =>
        cases resolves with
        | channel loads path accepted =>
          rw [loads] at reference
          cases path.symm.trans (Option.some.inj reference)
  have failing :=
    (align_repeats acmeWorkspace ["work"] {} named).1 (.read (.disk .notFound)) [] {} rfl
  obtain ⟨left, again⟩ :=
    (align_repeats acmeWorkspace ["work"] acmeFiles named).2 report log after runs
  exact ⟨named, ⟨_, _, rfl, failing⟩, report, log, after, runs, separate, left, again separate⟩

end Workspace

end VersionAlignment
