import VersionAlignment.Channel.Repository
import VersionAlignment.Proofs.JoinedPaths

set_option autoImplicit false

namespace VersionAlignment

namespace ManifestCoordinate

open VersionAlignment.Path

variable {s : String}

theorem not_isFollowing_slash : isFollowing '/' = false := by decide

theorem not_isLead_dot : isLead '.' = false := by decide

theorem isComponent_iff : isComponent s = true ↔ ∃ c cs, s.toList = c :: cs ∧
    isLead c = true ∧ (∀ d ∈ cs, isFollowing d = true) ∧ hasDots (c :: cs) = false := by
  rw [isComponent]
  split
  · next none => simp [none]
  · next c cs chars => simp [chars, and_assoc]

theorem isFollowing_of_isComponent (sound : isComponent s = true) :
    ∀ c ∈ s.toList, isFollowing c = true := by
  obtain ⟨c, cs, chars, lead, following, -⟩ := isComponent_iff.1 sound
  rw [chars]
  refine List.forall_mem_cons.2 ⟨?_, following⟩
  simp [isFollowing, lead]

theorem slash_not_mem (sound : isComponent s = true) : '/' ∉ s.toList := fun member => by
  have := isFollowing_of_isComponent sound '/' member
  rw [not_isFollowing_slash] at this
  cases this

theorem isName_append (sound : isComponent s = true) {more : String} (flat : '/' ∉ more.toList) :
    IsName (s ++ more) := by
  obtain ⟨c, cs, chars, lead, -⟩ := isComponent_iff.1 sound
  have other : c ≠ '.' := by
    rintro rfl
    rw [not_isLead_dot] at lead
    cases lead
  have apart {t : String} (dotted : t.toList.head? ≠ some c) : s ++ more ≠ t := by
    rintro rfl
    simp [chars] at dotted
  refine ⟨apart (by simp), apart ?_, apart ?_, ?_⟩
  · simpa using Ne.symm other
  · simpa using Ne.symm other
  · rw [String.toList_append, List.mem_append, not_or]
    exact ⟨slash_not_mem sound, flat⟩

theorem isName_of_isComponent (sound : isComponent s = true) : IsName s := by
  rw [← String.append_empty (s := s)]
  exact isName_append sound (by simp)

theorem checkComponents_eq_ok {parts : List String} (passed : checkComponents parts = .ok ()) :
    ∀ part ∈ parts, isComponent part = true := by
  induction parts with
  | nil => simp
  | cons part parts ih =>
    by_cases sound : isComponent part = true
    · rw [checkComponents, if_pos sound] at passed
      exact List.forall_mem_cons.2 ⟨sound, ih passed⟩
    · rw [checkComponents, if_neg sound] at passed
      cases passed

theorem checkComponents_of_ofParts {group artifact : String} {version : Option String}
    {found : Option ManifestCoordinate}
    (accepted : ofParts (some group) (some artifact) version = .ok found) :
    checkComponents (group :: artifact :: version.toList) = .ok () ∧
      found = some ⟨group, artifact, version⟩ := by
  rw [ofParts] at accepted
  cases passed : checkComponents (group :: artifact :: version.toList) with
  | error e => rw [passed] at accepted; cases accepted
  | ok =>
    rw [passed] at accepted
    exact ⟨rfl, (Except.ok.inj accepted).symm⟩

theorem isName_of_mem_split {group piece : String} (sound : isComponent group = true)
    (member : piece ∈ Text.split '.' group) (nonempty : piece ≠ "") : IsName piece := by
  obtain ⟨chars, inside, rfl⟩ := List.mem_map.1 member
  have undotted : '.' ∉ chars := fun dot => (Text.mem_of_mem_splitChars inside dot).2 rfl
  have flat : '/' ∉ chars := fun slash =>
    slash_not_mem sound (Text.mem_of_mem_splitChars inside slash).1
  refine ⟨nonempty, ?_, ?_, by simpa using flat⟩
  · intro same
    simp [show chars = ['.'] by simpa using congrArg String.toList same] at undotted
  · intro same
    simp [show chars = ['.', '.'] by simpa using congrArg String.toList same] at undotted

def groupNames (group : String) : List String := (Text.split '.' group).filter (· != "")

theorem isName_of_mem_groupNames {group name : String} (sound : isComponent group = true)
    (member : name ∈ groupNames group) : IsName name := by
  obtain ⟨inside, nonempty⟩ := List.mem_filter.1 member
  exact isName_of_mem_split sound inside (by simpa using nonempty)

theorem groupNames_ne_nil {group : String} (sound : isComponent group = true) :
    groupNames group ≠ [] := by
  obtain ⟨c, cs, chars, lead, -⟩ := isComponent_iff.1 sound
  have other : c ≠ '.' := by
    rintro rfl
    rw [not_isLead_dot] at lead
    cases lead
  obtain ⟨first, pieces, split⟩ := List.exists_cons_of_ne_nil (Text.splitChars_ne_nil '.' cs)
  have pieces : Text.split '.' group =
      String.ofList (c :: first) :: pieces.map String.ofList := by
    simp [Text.split, chars, Text.splitChars, other, split]
  simp [groupNames, pieces]

end ManifestCoordinate

namespace Repository

open VersionAlignment.Path ManifestCoordinate

theorem components_artifactDirectory (r : Repository) {group artifact : String}
    (sound : isComponent group = true) (sound' : isComponent artifact = true) :
    (r.artifactDirectory group artifact).components =
      r.root.components ++ (groupNames group ++ [artifact]).map .name := by
  rw [artifactDirectory, (isName_of_isComponent sound').components_join,
    components_foldl_join r.root fun piece => isName_of_mem_split sound]
  simp [groupNames]

theorem manifestName_eq (artifact version : String) :
    manifestName artifact version = artifact ++ "-" ++ version ++ "-manifest.toml" := rfl

theorem isName_manifestName {artifact version : String} (sound : isComponent artifact = true)
    (sound' : isComponent version = true) : IsName (manifestName artifact version) := by
  have flat : '/' ∉ ("-" ++ (version ++ "-manifest.toml")).toList := by
    simpa using slash_not_mem sound'
  rw [manifestName_eq, String.append_assoc, String.append_assoc]
  exact isName_append sound flat

theorem components_manifestPath (r : Repository) {group artifact version : String}
    {found : Option ManifestCoordinate}
    (accepted : ofParts (some group) (some artifact) (some version) = .ok found) :
    ∃ names : List String, 4 ≤ names.length ∧ (∀ name ∈ names, IsName name) ∧
      names.getLast? = some (artifact ++ "-" ++ version ++ "-manifest.toml") ∧
      (r.manifestPath group artifact version).components =
        r.root.components ++ names.map .name := by
  have parts := checkComponents_eq_ok (checkComponents_of_ofParts accepted).1
  simp only [Option.toList_some, List.forall_mem_cons] at parts
  obtain ⟨sound, sound', sound'', -⟩ := parts
  have last := isName_manifestName sound' sound''
  have nonempty : 0 < (groupNames group).length :=
    List.length_pos_iff.2 (groupNames_ne_nil sound)
  refine ⟨groupNames group ++ [artifact, version, manifestName artifact version], ?_, ?_, ?_, ?_⟩
  · rw [List.length_append]
    simp only [List.length_cons, List.length_nil]
    omega
  · intro name member
    rcases List.mem_append.1 member with member | member
    · exact isName_of_mem_groupNames sound member
    · simp only [List.mem_cons, List.not_mem_nil, or_false] at member
      rcases member with rfl | rfl | rfl
      · exact isName_of_isComponent sound'
      · exact isName_of_isComponent sound''
      · exact last
  · rw [List.getLast?_append, manifestName_eq]
    rfl
  · rw [manifestPath, last.components_join, (isName_of_isComponent sound'').components_join,
      components_artifactDirectory r sound sound']
    simp

theorem components_manifestPath_acme :
    let r : Repository := ⟨⟨"./home/repository"⟩⟩
    let coordinate : ManifestCoordinate := ⟨"org.acme.", "acme-manifest", some "1.0"⟩
    ofParts (some "org.acme.") (some "acme-manifest") (some "1.0") = .ok (some coordinate) ∧
      (r.manifestPath "org.acme." "acme-manifest" "1.0").text =
        "./home/repository/org/acme/acme-manifest/1.0/acme-manifest-1.0-manifest.toml" ∧
      ∃ names : List String, 4 ≤ names.length ∧ (∀ name ∈ names, IsName name) ∧
        names.getLast? = some ("acme-manifest" ++ "-" ++ "1.0" ++ "-manifest.toml") ∧
        (r.manifestPath "org.acme." "acme-manifest" "1.0").components =
          r.root.components ++ names.map .name := by
  intro r coordinate
  have accepted : ofParts (some "org.acme.") (some "acme-manifest") (some "1.0") =
      .ok (some coordinate) := by rfl
  have path : (r.manifestPath "org.acme." "acme-manifest" "1.0").text =
      "./home/repository/org/acme/acme-manifest/1.0/acme-manifest-1.0-manifest.toml" := by
    decide +kernel
  exact ⟨accepted, path, components_manifestPath r accepted⟩

end Repository

end VersionAlignment
