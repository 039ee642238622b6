import VersionAlignment.Proofs.ConventionalVersions
import VersionAlignment.Proofs.ManifestRuns
import VersionAlignment.Sorted

set_option autoImplicit false

namespace VersionAlignment

namespace FileTree

/-- The same files and directories, listed in another order. -/
structure Relists (other tree : FileTree) : Prop where
  perm : other.entries.Perm tree.entries
  node? (place : Place) : other.node? place = tree.node? place

namespace Relists

variable {tree other : FileTree} {place : Place} {node : TreeNode}
  {entries entries' front back : List (Place × TreeNode)}

theorem refl (tree : FileTree) : tree.Relists tree := ⟨.refl _, fun _ => rfl⟩

theorem node?_congr (same : entries.lookup place = entries'.lookup place) :
    FileTree.node? ⟨entries⟩ place = FileTree.node? ⟨entries'⟩ place := by
  rw [FileTree.node?, FileTree.node?, same]

theorem of_perm (perm : other.entries.Perm tree.entries)
    (distinct : (other.entries.map Prod.fst).Nodup) : other.Relists tree :=
  ⟨perm, fun place => node?_congr (Sorted.lookup_of_perm perm distinct place)⟩

theorem last (once : ∀ entry ∈ back, entry.1 ≠ place) :
    Relists ⟨front ++ (back ++ [(place, node)])⟩ ⟨front ++ (place, node) :: back⟩ := by
  refine ⟨(List.perm_append_singleton _ back).append_left front, fun wanted => ?_⟩
  refine node?_congr ?_
  rw [List.lookup_append, List.lookup_append, List.lookup_append]
  congr 1
  by_cases here : wanted = place
  · have missing : back.lookup place = none :=
      List.lookup_eq_none_iff.2 fun entry member => by simpa using (once entry member).symm
    simp [here, missing]
  · have apart : (wanted == place) = false := by simpa using here
    simp [List.lookup_cons, apart]

theorem follow (same : other.Relists tree) (start : Place) (pieces : List String) :
    other.follow start pieces = tree.follow start pieces := by
  induction pieces generalizing start with
  | nil => simp only [FileTree.follow, same.node?]
  | cons piece rest ih => simp only [FileTree.follow, hasDirectory, same.node?, ih]

theorem locate (same : other.Relists tree) (current : Place) (p : Path) (pieces : List String) :
    other.locate current p pieces = tree.locate current p pieces := by
  simp only [FileTree.locate, same.follow]

theorem kind (same : other.Relists tree) (current : Place) (p : Path) :
    other.kind current p = tree.kind current p := by
  rw [FileTree.kind, FileTree.kind, same.locate]

end Relists

end FileTree

namespace Repository

section

variable {order : String → String → Ordering} [Std.OrientedCmp order] {versions : List String}
  {version first next : String}

def Greatest (order : String → String → Ordering) (versions : List String) (version : String) :
    Prop :=
  version ∈ versions ∧ ∀ other ∈ versions, order other version ≠ .gt

omit [Std.OrientedCmp order] in
theorem Greatest.of_perm {versions' : List String} (greatest : Greatest order versions version)
    (perm : versions.Perm versions') : Greatest order versions' version :=
  ⟨perm.mem_iff.1 greatest.1, fun other member => greatest.2 other (perm.mem_iff.2 member)⟩

theorem later_keeps (below : order next first ≠ .gt) :
    later order (some first) next = some first := by
  have above := Std.OrientedCmp.isGE_iff_isLE.2 (Ordering.ne_gt_iff_isLE.1 below)
  simp [later, above]

omit [Std.OrientedCmp order] in
theorem later_replaces (above : order first next = .lt) :
    later order (some first) next = some next := by
  simp [later, above]

omit [Std.OrientedCmp order] in
theorem latestOf?_concat (order : String → String → Ordering) (versions : List String)
    (next : String) :
    latestOf? order (versions ++ [next]) = later order (latestOf? order versions) next := by
  simp [latestOf?]

omit [Std.OrientedCmp order] in
theorem latestOf?_eq_none : latestOf? order versions = none ↔ versions = [] := by
  refine ⟨fun none => ?_, fun empty => empty ▸ rfl⟩
  rcases List.eq_nil_or_concat versions with empty | ⟨front, last, rfl⟩
  · exact empty
  · rw [List.concat_eq_append, latestOf?_concat] at none
    unfold later at none
    grind

theorem latestOf?_of_greatest (apart : versions.Pairwise fun a b => order a b ≠ .eq)
    (greatest : Greatest order versions version) : latestOf? order versions = some version := by
  induction versions using List.reverseRecOn with
  | nil => cases greatest.1
  | append_singleton front last ih =>
    obtain ⟨before, -, across⟩ := List.pairwise_append.1 apart
    obtain ⟨below, ends⟩ := List.forall_mem_append.1 greatest.2
    rw [latestOf?_concat]
    rcases List.mem_append.1 greatest.1 with earlier | here
    -- Once it has been found it stays, and until then whatever was found gives way to it.
    · rw [ih before ⟨earlier, below⟩, later_keeps (ends last List.mem_cons_self)]
    · obtain rfl := List.mem_singleton.1 here
      cases found : latestOf? order front with
      | none => rfl
      | some first =>
        have member := mem_of_latestOf? found
        have unequal := across first member version here
        have above : order first version = .lt := by
          cases compared : order first version with
          | lt => rfl
          | eq => exact absurd compared unequal
          | gt => exact absurd compared (below first member)
        exact later_replaces above

omit [Std.OrientedCmp order] in
theorem later_cases {latest : Option String} (found : later order latest next = some version) :
    version = next ∨ latest = some version ∧ (order version next).isGE = true := by
  unfold later at found
  grind

theorem order_self_ne_gt (version : String) : order version version ≠ .gt := by
  intro greater
  have less := Std.OrientedCmp.gt_iff_lt.1 greater
  rw [greater] at less
  cases less

theorem last_le_of_latestOf? {front : List String} {last : String}
    (found : latestOf? order (front ++ [last]) = some version) : order last version ≠ .gt := by
  rw [latestOf?_concat] at found
  rcases later_cases found with rfl | ⟨-, above⟩
  · exact order_self_ne_gt version
  · exact Ordering.isLE_iff_ne_gt.1 (Std.OrientedCmp.isGE_iff_isLE.1 above)

theorem order_ne_eq_symm (unequal : order first next ≠ .eq) : order next first ≠ .eq :=
  mt Std.OrientedCmp.eq_symm unequal

theorem eq_of_order_eq (apart : versions.Pairwise fun a b => order a b ≠ .eq)
    (listed : first ∈ versions) (listed' : next ∈ versions) (same : order first next = .eq) :
    first = next := by
  have symmetric : Std.Symm fun a b => order a b ≠ .eq := ⟨fun _ _ => order_ne_eq_symm⟩
  by_contra different
  exact apart.forall listed listed' different same

theorem Greatest.exists_later (greatest : Greatest order versions first)
    (apart : versions.Pairwise fun a b => order a b ≠ .eq)
    (transitive : ∀ other ∈ versions, order other first = .lt → order first next = .lt →
      order other next = .lt) :
    ∃ version, later order (some first) next = some version ∧
      Greatest order (versions ++ [next]) version := by
  by_cases above : order first next = .lt
  · refine ⟨next, later_replaces above, by simp,
      List.forall_mem_append.2 ⟨fun other member => ?_, by simpa using order_self_ne_gt next⟩⟩
    -- Along a cycle a version below the old one could be above the new one.
    cases compared : order other first with
    | lt =>
      rw [transitive other member compared above]
      nofun
    | eq =>
      rw [eq_of_order_eq apart member greatest.1 compared, above]
      nofun
    | gt => exact absurd compared (greatest.2 other member)
  · have below : order next first ≠ .gt := mt Std.OrientedCmp.gt_iff_lt.1 above
    exact ⟨first, later_keeps below, by simp [greatest.1],
      List.forall_mem_append.2 ⟨greatest.2, by simpa using below⟩⟩

theorem greatest_of_latestOf? (apart : versions.Pairwise fun a b => order a b ≠ .eq)
    (transitive : ∀ a ∈ versions, ∀ b ∈ versions, ∀ c ∈ versions,
      order a b = .lt → order b c = .lt → order a c = .lt)
    (found : latestOf? order versions = some version) : Greatest order versions version := by
  induction versions using List.reverseRecOn generalizing version with
  | nil => cases found
  | append_singleton front last ih =>
    rw [latestOf?_concat] at found
    cases latest : latestOf? order front with
    | none =>
      rw [latest] at found
      obtain rfl := Option.some.inj found
      obtain rfl := latestOf?_eq_none.1 latest
      exact ⟨by simp, by simpa using order_self_ne_gt last⟩
    | some first =>
      rw [latest] at found
      have before := (List.pairwise_append.1 apart).1
      have greatest := ih before
        (fun a ha b hb c hc => transitive a (by simp [ha]) b (by simp [hb]) c (by simp [hc])) latest
      have below : ∀ other ∈ front,
          order other first = .lt → order first last = .lt → order other last = .lt :=
        fun other member =>
          transitive other (by simp [member]) first (by simp [greatest.1]) last (by simp)
      obtain ⟨version', stays, greatest'⟩ := greatest.exists_later before below
      rw [found] at stays
      rwa [Option.some.inj stays]

end

section

variable {tree other : FileTree} {current : FileTree.Place} {group artifact version : String}

def published (r : Repository) (current : FileTree.Place) (tree : FileTree)
    (group artifact : String) : List String :=
  match tree.names current (r.artifactDirectory group artifact) with
  | .ok names => names.filter (r.publishes current tree group artifact)
  | .error _ => []

theorem runOn_latest?_published (r : Repository) (order : String → String → Ordering)
    (group artifact : String) (log : Log) (tree : FileTree) :
    (r.latest? (FileTree.disk current) order group artifact).runOn log tree =
      ((.ok (latestOf? order (r.published current tree group artifact)), log), tree) := by
  rw [runOn_latest?, latestOn?, published, FileTree.kind, FileTree.names]
  rcases tree.locate current (r.artifactDirectory group artifact)
      (FileTree.pieces (r.artifactDirectory group artifact)) with
    e | (⟨directory, bytes | _⟩ | place) <;> rfl

theorem published_eq (r : Repository) {directory : FileTree.Place}
    (leads : tree.locate current (r.artifactDirectory group artifact)
      (FileTree.pieces (r.artifactDirectory group artifact)) = .ok (.found directory .directory)) :
    r.published current tree group artifact =
      (tree.entries.filterMap (FileTree.nameIn? directory)).filter
        (r.publishes current tree group artifact) := by
  rw [published, FileTree.names, leads]

theorem exists_directory_of_published (r : Repository)
    (member : version ∈ r.published current tree group artifact) :
    ∃ directory, tree.locate current (r.artifactDirectory group artifact)
      (FileTree.pieces (r.artifactDirectory group artifact)) =
        .ok (.found directory .directory) := by
  cases listing : tree.names current (r.artifactDirectory group artifact) with
  | error e =>
    rw [published, listing] at member
    cases member
  | ok names =>
    obtain ⟨directory, leads, -⟩ := FileTree.names_eq_ok listing
    exact ⟨directory, leads⟩

theorem publishes_of_relists (r : Repository) (same : other.Relists tree) :
    r.publishes current other group artifact = r.publishes current tree group artifact := by
  funext version
  rw [publishes, publishes, same.kind]

theorem published_of_relists (r : Repository) (current : FileTree.Place) (group artifact : String)
    (same : other.Relists tree) :
    (r.published current other group artifact).Perm
      (r.published current tree group artifact) := by
  rw [published, published, FileTree.names, FileTree.names, same.locate,
    r.publishes_of_relists same]
  rcases tree.locate current (r.artifactDirectory group artifact)
      (FileTree.pieces (r.artifactDirectory group artifact)) with
    e | (⟨directory, bytes | _⟩ | place)
  · exact .refl _
  · exact .refl _
  · exact (same.perm.filterMap _).filter _
  · exact .refl _

theorem exists_relists_last (r : Repository)
    (distinct : (r.published current tree group artifact).Nodup)
    (member : version ∈ r.published current tree group artifact) :
    ∃ other front, other.Relists tree ∧
      r.published current other group artifact = front ++ [version] := by
  obtain ⟨directory, leads⟩ := r.exists_directory_of_published member
  rw [r.published_eq leads] at member distinct
  obtain ⟨listed, accepted⟩ := List.mem_filter.1 member
  obtain ⟨⟨place, node⟩, present, named⟩ := List.mem_filterMap.1 listed
  obtain ⟨front, back, split⟩ := List.append_of_mem present
  -- The version would be published twice.
  have once : ∀ entry ∈ back, entry.1 ≠ place := by
    intro entry again same
    have named' : FileTree.nameIn? directory entry = some version :=
      FileTree.nameIn?_eq_some.2 (same.trans (FileTree.nameIn?_eq_some.1 named))
    have twice : version ∈ (back.filterMap (FileTree.nameIn? directory)).filter
        (r.publishes current tree group artifact) :=
      List.mem_filter.2 ⟨List.mem_filterMap.2 ⟨entry, again, named'⟩, accepted⟩
    rw [split, List.filterMap_append, List.filterMap_cons_some named, List.filter_append,
      List.filter_cons_of_pos accepted] at distinct
    exact (List.nodup_cons.1 (List.nodup_append.1 distinct).2.1).1 twice
  have relists : FileTree.Relists ⟨front ++ (back ++ [(place, node)])⟩ tree := by
    have moved : FileTree.Relists _ ⟨front ++ (place, node) :: back⟩ := .last once
    rwa [← split] at moved
  refine ⟨_, ((front ++ back).filterMap (FileTree.nameIn? directory)).filter
    (r.publishes current tree group artifact), relists, ?_⟩
  rw [r.published_eq ((relists.locate _ _ _).trans leads), r.publishes_of_relists relists]
  simp [named, accepted]

def FindsLatest (r : Repository) (current : FileTree.Place) (group artifact : String)
    (tree : FileTree) (latest : Option String) : Prop :=
  ∀ log, (r.latest? (FileTree.disk current) Version.compare group artifact).runOn log tree =
    ((.ok latest, log), tree)

theorem findsLatest_iff (r : Repository) {latest : Option String} :
    r.FindsLatest current group artifact tree latest ↔
      latestOf? Version.compare (r.published current tree group artifact) = latest := by
  simp only [FindsLatest, runOn_latest?_published, Prod.mk.injEq, Except.ok.injEq, and_true]
  exact ⟨fun found => found [], fun found _ => found⟩

theorem findsLatest_of_greatest (r : Repository)
    (apart : (r.published current tree group artifact).Pairwise fun a b =>
      Version.compare a b ≠ .eq)
    (greatest : Greatest Version.compare (r.published current tree group artifact) version)
    (same : other.Relists tree) : r.FindsLatest current group artifact other (some version) := by
  have perm := (r.published_of_relists current group artifact same).symm
  exact r.findsLatest_iff.2 <| latestOf?_of_greatest (perm.pairwise apart order_ne_eq_symm)
    (greatest.of_perm perm)

theorem greatest_of_findsLatest (r : Repository)
    (apart : (r.published current tree group artifact).Pairwise fun a b =>
      Version.compare a b ≠ .eq)
    (always : ∀ other : FileTree, other.Relists tree →
      r.FindsLatest current group artifact other (some version)) :
    Greatest Version.compare (r.published current tree group artifact) version := by
  have found := r.findsLatest_iff.1 (always tree (.refl tree))
  refine ⟨mem_of_latestOf? found, fun above member greater => ?_⟩
  have distinct : (r.published current tree group artifact).Nodup := by
    refine apart.imp fun {a b} unequal => ?_
    rintro rfl
    exact unequal (Version.compare_self a)
  obtain ⟨other, front, same, ends⟩ := r.exists_relists_last distinct member
  have last := r.findsLatest_iff.1 (always other same)
  rw [ends] at last
  exact last_le_of_latestOf? last greater

theorem exists_greatest_of_conventional {versions : List String}
    (apart : versions.Pairwise fun a b => Version.compare a b ≠ .eq)
    (usual : ∀ version ∈ versions, Version.Conventional (Version.parse version))
    (nonempty : versions ≠ []) : ∃ version, Greatest Version.compare versions version := by
  have found : latestOf? Version.compare versions ≠ none := mt latestOf?_eq_none.1 nonempty
  obtain ⟨version, latest⟩ := Option.ne_none_iff_exists'.1 found
  refine ⟨version, greatest_of_latestOf? apart (fun a ha b hb c hc => ?_) latest⟩
  exact (usual a ha).compareItems_lt_trans (usual b hb) (usual c hc)

/-- If no two published versions are equal, the search finds one of them in every order, and finds
one and the same in all orders exactly if no other one is above it. That holds of one of them if all
are of the usual form. -/
theorem findsLatest_relists (r : Repository) (current : FileTree.Place) (tree : FileTree)
    (group artifact : String)
    (apart : (r.published current tree group artifact).Pairwise fun a b =>
      Version.compare a b ≠ .eq) :
    (∀ other : FileTree, other.Relists tree → ∃ latest,
      r.FindsLatest current group artifact other latest ∧
      (latest = none ↔ r.published current tree group artifact = []) ∧
      ∀ version, latest = some version → version ∈ r.published current tree group artifact) ∧
    (∀ version, (∀ other : FileTree, other.Relists tree →
        r.FindsLatest current group artifact other (some version)) ↔
      Greatest Version.compare (r.published current tree group artifact) version) ∧
    ((∀ version ∈ r.published current tree group artifact,
        Version.Conventional (Version.parse version)) →
      ∃ latest, ∀ other : FileTree, other.Relists tree →
        r.FindsLatest current group artifact other latest) := by
  refine ⟨fun other same => ?_, fun version => ⟨r.greatest_of_findsLatest apart,
    fun greatest other same => r.findsLatest_of_greatest apart greatest same⟩, fun usual => ?_⟩
  · have perm := r.published_of_relists current group artifact same
    refine ⟨_, r.findsLatest_iff.2 rfl, ?_, fun version found => ?_⟩
    · rw [latestOf?_eq_none, ← List.length_eq_zero_iff, perm.length_eq, List.length_eq_zero_iff]
    · exact perm.mem_iff.1 (mem_of_latestOf? found)
  · by_cases empty : r.published current tree group artifact = []
    · refine ⟨none, fun other same => r.findsLatest_iff.2 ?_⟩
      have perm := r.published_of_relists current group artifact same
      rw [empty] at perm
      rw [perm.eq_nil]
      rfl
    · obtain ⟨version, greatest⟩ := exists_greatest_of_conventional apart usual empty
      exact ⟨some version, fun other same => r.findsLatest_of_greatest apart greatest same⟩

def localRepository : Repository := ⟨⟨"/repo"⟩⟩

def acmeManifests (versions : List String) : FileTree :=
  let directory := ["repo", "org", "acme", "acme-manifest"]
  ⟨(directory.inits.tail.map (·, .directory)) ++ versions.flatMap fun version =>
    [(directory ++ [version], .directory),
      (directory ++ [version, manifestName "acme-manifest" version], .file .empty)]⟩

theorem relists_acmeManifests {versions versions' : List String} (perm : versions.Perm versions')
    (distinct : ((acmeManifests versions).entries.map Prod.fst).Nodup) :
    (acmeManifests versions).Relists (acmeManifests versions') :=
  .of_perm ((perm.flatMap_right _).append_left _) distinct

theorem findsLatest_relists_acme :
    let tree : FileTree := ⟨(["repo", "org", "acme", "acme-manifest", "2.0"], .directory) ::
      (acmeManifests ["1.9", "1.10"]).entries⟩
    let published := localRepository.published [] tree "org.acme" "acme-manifest"
    published = ["1.9", "1.10"] ∧
      published.Pairwise (fun a b => Version.compare a b ≠ .eq) ∧
      (∀ version ∈ published, Version.Conventional (Version.parse version)) ∧
      Greatest Version.compare published "1.10" ∧
      ∀ other : FileTree, other.Relists tree →
        localRepository.FindsLatest [] "org.acme" "acme-manifest" other (some "1.10") := by
  intro tree published
  have listed : published = ["1.9", "1.10"] := by decide +kernel
  have apart : published.Pairwise fun a b => Version.compare a b ≠ .eq := by
    rw [listed]
    decide +kernel
  have usual : ∀ version ∈ published, Version.Conventional (Version.parse version) := by
    have parsed : Version.parse "1.9" = [.number 1, .number 9] := by cbv
    have parsed' : Version.parse "1.10" = [.number 1, .number 10] := by cbv
    have two (n : Nat) : Version.Conventional [.number 1, .number (n + 1)] :=
      .number (by simp) (.number (by simp) .nil)
    simpa [listed, parsed, parsed'] using ⟨two 8, two 9⟩
  have greatest : Greatest Version.compare published "1.10" := by
    rw [listed]
    refine ⟨by simp, ?_⟩
    decide +kernel
  obtain ⟨-, always, -⟩ :=
    localRepository.findsLatest_relists [] tree "org.acme" "acme-manifest" apart
  exact ⟨listed, apart, usual, greatest, (always "1.10").2 greatest⟩

/-- Each of the versions is below another one, and the one that is listed last is found. -/
theorem findsLatest_depends_on_order :
    (acmeManifests ["1.2.3-rc1", "1.2.3", "1.2.3.redhat-1"]).names []
      (localRepository.artifactDirectory "org.acme" "acme-manifest") =
        .ok ["1.2.3-rc1", "1.2.3", "1.2.3.redhat-1"] ∧
    ["1.2.3-rc1", "1.2.3", "1.2.3.redhat-1"].Pairwise (fun a b => Version.compare a b ≠ .eq) ∧
    (acmeManifests ["1.2.3", "1.2.3.redhat-1", "1.2.3-rc1"]).Relists
      (acmeManifests ["1.2.3-rc1", "1.2.3", "1.2.3.redhat-1"]) ∧
    localRepository.FindsLatest [] "org.acme" "acme-manifest"
      (acmeManifests ["1.2.3-rc1", "1.2.3", "1.2.3.redhat-1"]) (some "1.2.3.redhat-1") ∧
    localRepository.FindsLatest [] "org.acme" "acme-manifest"
      (acmeManifests ["1.2.3", "1.2.3.redhat-1", "1.2.3-rc1"]) (some "1.2.3-rc1") := by
  refine ⟨by decide +kernel, by decide +kernel, ?_, ?_, ?_⟩
  · exact relists_acmeManifests (by decide) (by decide +kernel)
  · exact localRepository.findsLatest_iff.2 (by decide +kernel)
  · exact localRepository.findsLatest_iff.2 (by decide +kernel)

end

end Repository

end VersionAlignment
