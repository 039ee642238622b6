import VersionAlignment.Channel.Load
import VersionAlignment.Proofs.DirectoryEntries
import VersionAlignment.Proofs.ManifestPaths
import VersionAlignment.Proofs.TreeSessions

set_option autoImplicit false

namespace VersionAlignment

open FileTree Session

variable {tree later : FileTree} {place current : FileTree.Place} {bytes : ByteArray} {p : Path}
  {order : String → String → Ordering}

namespace Repository

inductive Candidate (r : Repository) (current : FileTree.Place) (tree : FileTree)
    (c : ManifestCoordinate) : String → Prop
  | wanted {version : String} : c.version = some version → Candidate r current tree c version
  | listed {names : List String} {version : String} : c.version = none →
      tree.names current (r.artifactDirectory c.group c.artifact) = .ok names →
      version ∈ names → Candidate r current tree c version

theorem mem_of_latestOf? {order : String → String → Ordering} {versions : List String}
    {version : String} (latest : latestOf? order versions = some version) :
    version ∈ versions := by
  suffices kept : ∀ first, versions.foldl (later order) first = some version →
      first = some version ∨ version ∈ versions by
    exact (kept none latest).resolve_left (by simp)
  clear latest
  induction versions with
  | nil => exact fun first ends => .inl ends
  | cons next versions ih =>
    intro first ends
    rcases ih (later order first next) ends with kept | member
    · unfold later at kept
      split at kept
      · split at kept
        · exact .inl kept
        · exact .inr (by simp [Option.some.inj kept])
      · exact .inr (by simp [Option.some.inj kept])
    · exact .inr (List.mem_cons_of_mem next member)

theorem run_filterM {α σ : Type} {f : α → StateM σ Bool} {test : α → Bool} {s : σ}
    (tests : ∀ a, (f a).run s = (test a, s)) (items : List α) :
    (items.filterM f).run s = (items.filter test, s) := by
  suffices kept : ∀ front, (items.filterAuxM f front).run s =
      ((items.filter test).reverse ++ front, s) by
    rw [List.filterM, StateT.run_bind, kept]
    show ((_ : List α).reverse, s) = _
    simp
  induction items with
  | nil => exact fun front => rfl
  | cons item items ih =>
    intro front
    rw [List.filterAuxM, StateT.run_bind, tests]
    show (items.filterAuxM f (cond (test item) (item :: front) front)).run s = _
    rw [ih]
    cases passed : test item with
    | true => simp [passed]
    | false => simp [passed]

def publishes (r : Repository) (current : FileTree.Place) (tree : FileTree)
    (group artifact version : String) : Bool :=
  tree.kind current (r.manifestPath group artifact version) == some .file

theorem startsAtRoot_manifestName {artifact : String} (version : String)
    (relative : Path.startsAtRoot artifact = false) :
    Path.startsAtRoot (manifestName artifact version) = false := by
  rw [manifestName_eq]
  cases chars : artifact.toList with
  | nil => simp [Path.startsAtRoot, chars]
  | cons c cs => simpa [Path.startsAtRoot, chars] using relative

theorem not_publishes_put (r : Repository) {group artifact name : String}
    {directory : FileTree.Place} (relative : Path.startsAtRoot artifact = false)
    (named : ∀ name ∈ place, Path.IsName name) (file : tree.hasDirectory place = false)
    (leads : tree.locate current (r.artifactDirectory group artifact)
      (pieces (r.artifactDirectory group artifact)) = .ok (.found directory .directory))
    (ends : place = directory ++ [name]) :
    r.publishes current (tree.put place (.file bytes)) group artifact name = false := by
  have apart : directory ≠ place := by simp [ends]
  have moved := locate_put_ok bytes file leads
  have still : filled place bytes (.found directory .directory) = .found directory .directory :=
    if_neg apart
  rw [still] at moved
  have flat : (tree.put place (.file bytes)).hasDirectory (directory ++ [name]) = false := by
    rw [hasDirectory_put_file file, ← ends, file]
  rw [publishes, manifestPath, kind_join_of_file moved (named name (by simp [ends])) flat
    (startsAtRoot_manifestName name relative)]
  rfl

theorem run_published (r : Repository) (tree : FileTree) (group artifact : String)
    (names : List String) :
    (names.filterM fun version => (FileTree.disk current).isFile
        (r.manifestPath group artifact version)).run tree =
      (names.filter (r.publishes current tree group artifact), tree) := by
  apply run_filterM
  intro version
  rfl

def latestOn? (r : Repository) (order : String → String → Ordering) (current : FileTree.Place)
    (tree : FileTree) (group artifact : String) : Except ChannelError (Option String) :=
  if tree.kind current (r.artifactDirectory group artifact) = some .directory then
    ((tree.names current (r.artifactDirectory group artifact)).mapError .disk).map fun names =>
      latestOf? order (names.filter (r.publishes current tree group artifact))
  else .ok none

theorem runOn_latest? (r : Repository) (order : String → String → Ordering)
    (group artifact : String) (log : Log) (tree : FileTree) :
    (r.latest? (FileTree.disk current) order group artifact).runOn log tree =
      ((r.latestOn? order current tree group artifact, log), tree) := by
  unfold latest?
  simp only
  rw [runOn_perform_bind, run_isDirectory, latestOn?]
  by_cases here : tree.kind current (r.artifactDirectory group artifact) = some .directory
  · rw [if_pos here, if_pos (by rw [here]; rfl), runOn_perform_bind, run_names]
    cases lists : tree.names current (r.artifactDirectory group artifact) with
    | error e => rfl
    | ok names =>
      simp only
      rw [runOn_perform_bind, r.run_published tree group artifact names]
      rfl
  · rw [if_neg here, if_neg (by simpa using here)]
    rfl

theorem listed_of_latestOn? (r : Repository) {group artifact version : String}
    (found : r.latestOn? order current tree group artifact = .ok (some version)) :
    ∃ names, tree.names current (r.artifactDirectory group artifact) = .ok names ∧
      version ∈ names := by
  rw [latestOn?] at found
  split at found
  · cases lists : tree.names current (r.artifactDirectory group artifact) with
    | error e =>
      rw [lists] at found
      cases found
    | ok names =>
      rw [lists] at found
      have latest := mem_of_latestOf? (Except.ok.inj found)
      exact ⟨names, rfl, (List.mem_filter.1 latest).1⟩
  · cases found

theorem latestOn?_put (r : Repository) {group artifact : String}
    (relative : Path.startsAtRoot artifact = false) (named : ∀ name ∈ place, Path.IsName name)
    (file : tree.hasDirectory place = false)
    (apart : ∀ names version,
      tree.names current (r.artifactDirectory group artifact) = .ok names → version ∈ names →
      (tree.put place (.file bytes)).place? current (r.manifestPath group artifact version) ≠
        some place)
    {latest : Option String} (found : r.latestOn? order current tree group artifact = .ok latest) :
    r.latestOn? order current (tree.put place (.file bytes)) group artifact = .ok latest := by
  have still := kind_put_directory bytes file current (r.artifactDirectory group artifact)
  rw [latestOn?] at found ⊢
  by_cases here : tree.kind current (r.artifactDirectory group artifact) = some .directory
  · rw [if_pos here] at found
    rw [if_pos (still.2 here)]
    cases lists : tree.names current (r.artifactDirectory group artifact) with
    | error e =>
      rw [lists] at found
      cases found
    | ok names =>
      rw [lists] at found
      obtain rfl := Except.ok.inj found
      -- The directory may list the new file, which has no manifest below it.
      obtain ⟨names', lists', same⟩ := filter_names_put bytes file lists
        (r.publishes current tree group artifact)
        (r.publishes current (tree.put place (.file bytes)) group artifact)
        (fun name member => by
          rw [publishes, kind_put_of_apart file (apart names name lists member), publishes])
        (fun directory name leads ends => r.not_publishes_put relative named file leads ends)
      rw [lists']
      show Except.ok (latestOf? order (names'.filter _)) = _
      rw [same]
  · rw [if_neg here] at found
    rw [if_neg (mt still.1 here), found]

/-- What is found when a coordinate is resolved is the same on a later tree. -/
structure Agrees (r : Repository) (order : String → String → Ordering) (current : FileTree.Place)
    (tree next : FileTree) (c : ManifestCoordinate) : Prop where
  kind : ∀ version, r.Candidate current tree c version →
    next.kind current (r.manifestPath c.group c.artifact version) =
      tree.kind current (r.manifestPath c.group c.artifact version)
  latest : ∀ latest, c.version = none →
    r.latestOn? order current tree c.group c.artifact = .ok latest →
      r.latestOn? order current next c.group c.artifact = .ok latest

theorem Agrees.refl (r : Repository) (c : ManifestCoordinate) :
    r.Agrees order current tree tree c :=
  ⟨fun _ _ => rfl, fun _ _ found => found⟩

theorem agrees_put (r : Repository) {c : ManifestCoordinate}
    (unchanged : Path.startsAtRoot c.artifact = true →
      r.latestOn? order current (tree.put place (.file bytes)) c.group c.artifact =
        r.latestOn? order current tree c.group c.artifact)
    (named : ∀ name ∈ place, Path.IsName name) (file : tree.hasDirectory place = false)
    (apart : ∀ version, r.Candidate current tree c version →
      (tree.put place (.file bytes)).place? current (r.manifestPath c.group c.artifact version) ≠
        some place) :
    r.Agrees order current tree (tree.put place (.file bytes)) c where
  kind version candidate := kind_put_of_apart file (apart version candidate)
  latest latest wanted found := by
    -- An artifact from the root has its manifests outside its directory, so that the new file may
    -- stand beside its versions and be taken for one.
    cases absolute : Path.startsAtRoot c.artifact with
    | true => rw [unchanged absolute, found]
    | false =>
      exact r.latestOn?_put absolute named file
        (fun names version lists member => apart version (.listed wanted lists member)) found

theorem Agrees.repeats_resolve {r : Repository} {c : ManifestCoordinate} {next : FileTree}
    (agrees : r.Agrees order current tree next c) :
    Repeats tree next
      (fun p => ∃ version, r.Candidate current tree c version ∧
        p = r.manifestPath c.group c.artifact version)
      (r.resolve (FileTree.disk current) order c) := by
  have checked (version : String) (candidate : r.Candidate current tree c version) :
      Repeats tree next
        (fun p => ∃ version, r.Candidate current tree c version ∧
          p = r.manifestPath c.group c.artifact version)
        (do
          let p := r.manifestPath c.group c.artifact version
          if ← Session.perform ((FileTree.disk current).isFile p) then return p
          else throw (.notPublished c.text r.root) :
            Session ChannelError (StateM FileTree) Path) := by
    have same := agrees.kind version candidate
    refine .perform_bind (run_isFile tree current _) (by rw [run_isFile, same]) ?_
    split
    · exact .pure ⟨version, candidate, rfl⟩
    · exact .throw _
  unfold resolve
  cases wanted : c.version with
  | some version =>
    exact checked version (.wanted wanted)
  | none =>
    have latest : Repeats tree next
        (fun latest => r.latestOn? order current tree c.group c.artifact = .ok latest)
        (r.latest? (FileTree.disk current) order c.group c.artifact) := by
      intro log
      refine ⟨_, log, r.runOn_latest? order c.group c.artifact log tree, fun latest found => ?_⟩
      exact ⟨found, by rw [runOn_latest?, agrees.latest latest wanted found]⟩
    refine .bind latest fun latest found => ?_
    cases latest with
    | none => exact .throw _
    | some version =>
      obtain ⟨names, lists, member⟩ := r.listed_of_latestOn? found
      exact checked version (.listed wanted lists member)

end Repository

theorem ManifestCoordinate.startsAtRoot_of_ofParts {group artifact version : Option String}
    {c : ManifestCoordinate} (accepted : ofParts group artifact version = .ok (some c)) :
    Path.startsAtRoot c.artifact = false := by
  cases group with
  | none => cases artifact <;> cases accepted
  | some group =>
    cases artifact with
    | none => cases accepted
    | some artifact =>
      obtain ⟨passed, same⟩ := checkComponents_of_ofParts accepted
      obtain rfl := Option.some.inj same
      have sound := checkComponents_eq_ok passed artifact (by simp)
      exact Path.startsAtRoot_of_not_mem (slash_not_mem sound)

namespace Library

inductive Resolves (current : FileTree.Place) (tree : FileTree) (channelFile : Path) :
    Option ManifestCoordinate → ManifestCoordinate → Prop
  | wanted {c : ManifestCoordinate} : Resolves current tree channelFile (some c) c
  | channel {channel : Channel} {c : ManifestCoordinate} :
      tree.load current channelFile Channel.ofText = .ok channel →
      channel.manifest.path = none →
      ManifestCoordinate.ofParts channel.manifest.group channel.manifest.artifact
        channel.manifest.version = .ok (some c) →
      Resolves current tree channelFile none c

inductive Consults (r : Repository) (current : FileTree.Place) (tree : FileTree)
    (channelFile : Path) : Option ManifestCoordinate → Path → Prop
  | channel : Consults r current tree channelFile none channelFile
  | path {channel : Channel} {text : String} :
      tree.load current channelFile Channel.ofText = .ok channel →
      channel.manifest.path = some text →
      Consults r current tree channelFile none (channelFile.parent.join text)
  | coordinate {wanted : Option ManifestCoordinate} {c : ManifestCoordinate} {version : String} :
      Resolves current tree channelFile wanted c → r.Candidate current tree c version →
      Consults r current tree channelFile wanted (r.manifestPath c.group c.artifact version)

variable {r : Repository} {channelFile : Path} {wanted : Option ManifestCoordinate}

theorem repeats_manifestPath (stays : tree.Stays later current channelFile)
    (agrees : ∀ c, Resolves current tree channelFile none c → r.Agrees order current tree later c) :
    Repeats tree later (Consults r current tree channelFile none)
      ((⟨FileTree.disk current, r, order⟩ : Library (StateM FileTree)).manifestPath
        channelFile) := by
  unfold manifestPath
  refine .perform_except_bind (run_load tree current channelFile Channel.ofText)
    (fun e _ => ⟨.unreadable channelFile e, rfl⟩) fun channel loads =>
      ⟨by rw [run_load, stays.load loads], ?_⟩
  refine .bind (.ofExcept fun found accepted => accepted) fun found accepted => ?_
  refine .bind (.logAll _) fun _ _ => ?_
  cases path : channel.manifest.path with
  | some text =>
    have consulted := Consults.path (r := r) loads path
    cases found with
    | none => exact .pure consulted
    | some c => exact .bind (.logAll _) fun _ _ => .pure consulted
  | none =>
    cases found with
    | none => exact .throw _
    | some c =>
      have resolves := Resolves.channel loads path accepted
      refine .weaken (agrees c resolves).repeats_resolve ?_
      rintro _ ⟨version, candidate, rfl⟩
      exact .coordinate resolves candidate

theorem repeats_loadManifest
    (stays : ∀ p, Consults r current tree channelFile wanted p → tree.Stays later current p)
    (agrees : ∀ c, Resolves current tree channelFile wanted c →
      r.Agrees order current tree later c) :
    Repeats tree later (fun _ => True)
      ((⟨FileTree.disk current, r, order⟩ : Library (StateM FileTree)).loadManifest channelFile
        wanted) := by
  have loaded (p : Path) (consulted : Consults r current tree channelFile wanted p) :
      Repeats tree later (fun _ => True) (do
        Session.log .info s!"Loading manifest from {p.text}"
        Session.adapt (.unreadable p)
          ((FileTree.disk current).loadLogged p Manifest.ofText "read manifest") :
          Session ChannelError (StateM FileTree) Manifest) :=
    .bind (.logAll _) fun _ _ =>
      .adapt _ (.weaken (.loadLogged (stays p consulted) _) fun _ _ => trivial)
  unfold loadManifest
  cases wanted with
  | some c =>
    refine .bind (.logAll _) fun _ _ => .bind (agrees c .wanted).repeats_resolve ?_
    rintro _ ⟨version, candidate, rfl⟩
    exact loaded _ (.coordinate .wanted candidate)
  | none => exact .bind (repeats_manifestPath (stays _ .channel) agrees) loaded

theorem agrees_put
    (unchanged : ∀ c, wanted = some c → Path.startsAtRoot c.artifact = true →
      r.latestOn? order current (tree.put place (.file bytes)) c.group c.artifact =
        r.latestOn? order current tree c.group c.artifact)
    (named : ∀ name ∈ place, Path.IsName name) (file : tree.hasDirectory place = false)
    (apart : ∀ p, Consults r current tree channelFile wanted p →
      (tree.put place (.file bytes)).place? current p ≠ some place) {c : ManifestCoordinate}
    (resolves : Resolves current tree channelFile wanted c) :
    r.Agrees order current tree (tree.put place (.file bytes)) c := by
  refine r.agrees_put (fun absolute => ?_) named file fun version candidate =>
    apart _ (.coordinate resolves candidate)
  cases resolves with
  | wanted => exact unchanged c rfl absolute
  | channel loads path accepted =>
    rw [ManifestCoordinate.startsAtRoot_of_ofParts accepted] at absolute
    cases absolute

end Library

end VersionAlignment
