import VersionAlignment.Proofs.ManifestChannel

set_option autoImplicit false

namespace VersionAlignment

theorem filter_firstDeclarations (seen : List (Coordinate × Place)) (ds : List Declaration)
    (key : Coordinate × Place) : (firstDeclarations seen ds).filter (·.key == key) =
      if key ∈ seen then [] else (ds.find? (·.key == key)).toList := by
  induction ds generalizing seen with
  | nil => simp [firstDeclarations]
  | cons d rest ih =>
    rw [firstDeclarations, List.find?_cons]
    cases own : d.key == key with
    | true =>
      obtain rfl := eq_of_beq own
      by_cases old : d.key ∈ seen <;> simp [old, ih]
    | false =>
      have other : ¬ key = d.key := fun same => by simp [same] at own
      by_cases old : d.key ∈ seen <;> simp [old, ih, own, other]

namespace Module

def decided (m : Module) : List Declaration :=
  (firstDeclarations [] m.declarations).filter (·.version.isSome)

/-- The first declaration of a coordinate and section has no version, but a later one has. -/
def Hides (m : Module) (key : Coordinate × Place) : Prop :=
  ∃ d, m.declarations.find? (·.key == key) = some d ∧ d.version = none ∧
    ∃ e ∈ m.declarations, e.key = key ∧ e.version.isSome

variable {m : Module} {key : Coordinate × Place}

theorem filter_decided (m : Module) (key : Coordinate × Place) :
    m.decided.filter (·.key == key) =
      ((m.declarations.find? (·.key == key)).filter (·.version.isSome)).toList := by
  have first := filter_firstDeclarations [] m.declarations key
  rw [if_neg List.not_mem_nil] at first
  rw [decided, List.filter_filter]
  simp only [Bool.and_comm]
  rw [← List.filter_filter, first, Option.toList_filter]

theorem find?_of_first {d : Declaration} (first : m.declarations.find? (·.key == key) = some d)
    (version : d.version.isSome) :
    (m.declarations.find? fun d => d.key == key && d.version.isSome) = some d := by
  obtain ⟨own, before, after, split, others⟩ := List.find?_eq_some_iff_append.1 first
  refine List.find?_eq_some_iff_append.2 ⟨by simp [own, version], before, after, split, ?_⟩
  intro e member
  have other : (e.key == key) = false := by simpa using others e member
  simp [other]

theorem filter_decided_eq_iff : m.decided.filter (·.key == key) =
    (m.declarations.find? fun d => d.key == key && d.version.isSome).toList ↔ ¬ m.Hides key := by
  rw [filter_decided]
  cases first : m.declarations.find? (·.key == key) with
  | none =>
    have missing := List.find?_eq_none.1 first
    have unfound : (m.declarations.find? fun d => d.key == key && d.version.isSome) = none :=
      List.find?_eq_none.2 fun d member => by simp_all
    simp [unfound, Hides, first]
  | some d =>
    cases version : d.version with
    | some raw =>
      have found := find?_of_first first (by simp [version])
      simp [found, Hides, first, version]
    | none =>
      have undecided : Option.filter (·.version.isSome) (some d) = none := by simp [version]
      simp [undecided, Hides, first, version, eq_comm (a := ([] : List Declaration))]

end Module

namespace Run

theorem foldl_alignDeclaration (s : Setting) (index : Nat) (run : Run) (ds : List Declaration) :
    (ds.filter (·.version.isSome)).foldl (alignDeclaration s index) run =
      ds.foldl (alignDeclaration s index) run := by
  rw [List.foldl_filter]
  congr 1
  funext run d
  cases version : d.version <;> simp [alignDeclaration, version]

theorem alignModule_decides (s : Setting) (run : Run) (index : Nat) {m : Module}
    (heeded : s.policy.ignoresModule m = false) :
    alignModule s run (m, index) =
      m.decided.foldl (alignDeclaration s index) (run.note s!"Aligning module {m}") ∧
    ∀ key, m.decided.filter (·.key == key) =
        ((m.declarations.find? (·.key == key)).filter (·.version.isSome)).toList ∧
      (m.decided.filter (·.key == key) =
        (m.declarations.find? fun d => d.key == key && d.version.isSome).toList ↔
          ¬ m.Hides key) := by
  refine ⟨?_, fun key => ⟨m.filter_decided key, Module.filter_decided_eq_iff⟩⟩
  rw [Module.decided, foldl_alignDeclaration]
  simp [alignModule, heeded]

def codecAt (versions : List (Option String)) : Module where
  group := "org.acme"
  artifact := "parent"
  version := "1"
  isRoot := true
  declarations := versions.map fun version =>
    { coordinate := ⟨"io.netty", "netty-codec", "jar", none⟩, version }

theorem alignModule_decides_codec :
    let s := twoVersions.setting ⟨[codecAt [some "1.0", none, some "1.1"]], 0⟩ .alone {}
    let m := codecAt [some "1.0", none, some "1.1"]
    let key := (⟨"io.netty", "netty-codec", "jar", none⟩, Place.dependencies)
    s.policy.ignoresModule m = false ∧
      (m.decided.filter (·.key == key)).map (·.version) = [some "1.0"] ∧ ¬ m.Hides key ∧
      (alignModule s {} (m, 0)).changes.changes = [.overrideVersion 0 key.1 "1.0" "2.1"] := by
  intro s m key
  have heeded : s.policy.ignoresModule m = false := by decide
  obtain ⟨run, decides⟩ := alignModule_decides s {} 0 heeded
  have one : m.decided.filter (·.key == key) =
      (m.declarations.find? fun d => d.key == key && d.version.isSome).toList := by decide
  refine ⟨heeded, by decide, (decides key).2.1 one, ?_⟩
  rw [run]
  decide +kernel

theorem alignModule_hides_codec :
    let s := twoVersions.setting ⟨[codecAt [none, some "1.0"]], 0⟩ .alone {}
    let m := codecAt [none, some "1.0"]
    let key := (⟨"io.netty", "netty-codec", "jar", none⟩, Place.dependencies)
    s.project.module? 0 = some m ∧ s.policy.ignoresModule m = false ∧
      (m.declarations.find? fun d => d.key == key && d.version.isSome).map (·.version) =
        some (some "1.0") ∧
      s.given.channel key.1 "1.0" = some "2.1" ∧ s.isMove "1.0" "2.1" = true ∧
      m.decided = [] ∧ m.Hides key ∧ (declared s).changes.changes = [] ∧
      (declared s).unaligned = [] ∧ (declared s).warnings = [] := by
  intro s m key
  have hides : m.Hides key :=
    ⟨_, rfl, rfl, { coordinate := key.1, version := some "1.0" }, by decide, rfl, rfl⟩
  exact ⟨rfl, by decide, rfl, rfl, by decide +kernel, by decide, hides, rfl, rfl, rfl⟩

end Run

end VersionAlignment
