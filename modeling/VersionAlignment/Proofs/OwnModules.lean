import VersionAlignment.Proofs.ManifestChannel
import VersionAlignment.Proofs.RedeclaredRuns
import VersionAlignment.Proofs.ReportedDeclarations

set_option autoImplicit false

namespace VersionAlignment

inductive Report.Names (r : Report) : Coordinate → Prop
  | changed {change : Change} {c : Coordinate} : change ∈ r.changes.changes →
      change.coordinate? = some c → Names r c
  | uncovered {c : Coordinate} : c ∈ r.notCovered → Names r c
  | unaligned {u : Unaligned} : u ∈ r.unaligned → Names r u.coordinate
  | warned {w : Warning} : w ∈ r.warnings → Names r w.coordinate

theorem Run.involved_of_names {s : Setting} {c : Coordinate}
    (names : (declared s).toReport.Names c) : ∃ index, s.Involves index c := by
  have concerns := concerns_declared s
  cases names with
  | @changed change _ member named => exact ⟨change.owner, concerns.changed change member c named⟩
  | uncovered member => exact concerns.uncovered c member
  | @unaligned u member => exact ⟨u.owner, concerns.unaligned u member⟩
  | @warned w member => exact ⟨w.owner, concerns.warned w member⟩

theorem Report.names_of_extend {r : Report} {s : Setting} {candidates : Candidates}
    {c : Coordinate} (names : (r.extend (TransitiveOutcome.ofCandidates s candidates)).Names c) :
    r.Names c ∨ c ∈ candidates.map Prod.fst := by
  obtain ⟨injections, behind⟩ := TransitiveOutcome.ofCandidates_eq s candidates
  cases names with
  | changed member named =>
    refine (ChangeSet.mem_extend.1 member).imp (.changed · named) fun new => ?_
    rw [injections, List.mem_flatMap] at new
    obtain ⟨⟨other, occurrence⟩, inside, asks⟩ := new
    obtain ⟨target, -, -, rfl⟩ := TransitiveOutcome.mem_injected.1 asks
    cases named
    exact List.mem_map_of_mem inside
  | uncovered member =>
    refine (Sorted.mem_union.1 member).imp .uncovered fun new => ?_
    obtain ⟨occurrence, inside, -⟩ := TransitiveOutcome.mem_notCovered.1 new
    exact List.mem_map_of_mem inside
  | unaligned member =>
    refine (List.mem_append.1 member).imp .unaligned fun new => ?_
    rw [behind, List.mem_flatMap] at new
    obtain ⟨⟨other, occurrence⟩, inside, stays⟩ := new
    obtain ⟨target, -, -, -, rfl⟩ := TransitiveOutcome.mem_behind.1 stays
    exact List.mem_map_of_mem inside
  | warned member => exact .inl (.warned member)

theorem Candidates.foreign_of_admits {s : Setting} {node : GraphNode}
    (admitted : admits s node = true) : s.project.owns node.artifact.coordinate = false := by
  simp only [admits, Bool.not_eq_true', Bool.or_eq_false_iff] at admitted
  exact admitted.1.1.1

theorem Report.foreign_of_names {p : Project} {given : Surroundings} {o : Options}
    {report : Report} {c : Coordinate} (ends : (align p given o).1 = .ok report)
    (names : report.Names c) : p.owns c = false := by
  rcases align_eq_ok.1 ends with ⟨-, rfl⟩ | ⟨-, candidates, gathered, rfl⟩
  · obtain ⟨index, involves⟩ := Run.involved_of_names names
    exact involves.foreign
  · rcases names_of_extend names with before | candidate
    · obtain ⟨index, involves⟩ := Run.involved_of_names before
      exact involves.foreign
    · rcases Candidates.admits_of_gather gathered candidate with none | ⟨node, admitted, rfl⟩
      · simp at none
      · exact Candidates.foreign_of_admits admitted

theorem Override.declaration_owned {s : Setting} {run : Run} {index : Nat} {d : Declaration}
    (owned : s.project.owns d.coordinate = true) : declaration s index run d = run :=
  declaration_idle fun _ _ asks => by simp [asks.foreign] at owned

theorem Run.declared_undeclare {s : Setting} {drops : Nat → Nat → Bool}
    (own : ∀ index position m d, s.project.module? index = some m →
      m.declarations[position]? = some d → drops index position = true →
      s.project.owns d.coordinate = true) :
    declared (s.redeclare fun index => dropAt (drops index)) = declared s := by
  refine declared_redeclare ?_ ?_
  · intro index m heeds run
    have same : SameBut (fun d : Declaration => s.project.owns d.coordinate = true) m.declarations
        (dropAt (drops index) m.declarations) :=
      sameBut_dropAt fun position d => own index position m d heeds.present
    exact same.foldl_eq (fun _ _ owned => Override.declaration_owned owned) run
  · intro index m heeds run
    -- What comes first only once an own module is dropped is the same own module.
    have same := m.sameBut_dropAt (p := fun d => s.project.owns d.coordinate = true)
      (fun position d => own index position m d heeds.present) (by
        rintro position e - - ⟨earlier, before, d, declares, same⟩ alone
        have owned := own index earlier m d heeds.present declares
          (alone earlier before d declares same)
        have coordinate : d.coordinate = e.coordinate := congrArg Prod.fst same
        exact coordinate ▸ owned)
    exact same.foldl_eq (fun _ _ owned => alignDeclaration_owned owned) run

theorem Project.mem_declaredCoordinates_undeclare {p : Project} {drops : Nat → Nat → Bool}
    {c : Coordinate}
    (left : ∀ index position m d, p.module? index = some m →
      m.declarations[position]? = some d → d.coordinate = c → drops index position = false) :
    c ∈ (p.undeclare drops).declaredCoordinates ↔ c ∈ p.declaredCoordinates := by
  simp only [mem_declaredCoordinates, undeclare, module?_redeclare, Option.map_eq_some_iff]
  constructor
  · rintro ⟨index, _, ⟨m, present, rfl⟩, same | ⟨d, member, same⟩⟩
    · exact ⟨index, m, present, .inl same⟩
    · exact ⟨index, m, present, .inr ⟨d, (dropAt_sublist _ _).mem member, same⟩⟩
  · rintro ⟨index, m, present, same | ⟨d, member, same⟩⟩
    · exact ⟨index, _, ⟨m, present, rfl⟩, .inl same⟩
    · obtain ⟨position, here⟩ := List.getElem?_of_mem member
      exact ⟨index, _, ⟨m, present, rfl⟩, .inr ⟨d, mem_dropAt.2
        ⟨position, here, left index position m d present here same⟩, same⟩⟩

theorem align_undeclare_own (p : Project) (given : Surroundings) (o : Options)
    (graphs : ∀ m n : Module, m.identity = n.identity → given.graph m = given.graph n) :
    (∀ report c, (align p given o).1 = .ok report → report.Names c → p.owns c = false) ∧
    ∀ drops : Nat → Nat → Bool,
      (∀ index position m d, p.module? index = some m → m.declarations[position]? = some d →
        drops index position = true → p.owns d.coordinate = true) →
      align (p.undeclare drops) given o = align p given o := by
  refine ⟨fun report c ends names => Report.foreign_of_names ends names, fun drops own => ?_⟩
  refine align_redeclare (Run.declared_undeclare own) graphs fun c foreign => ?_
  refine Project.mem_declaredCoordinates_undeclare fun index position m d present here same => ?_
  cases dropped : drops index position with
  | false => rfl
  | true => simp [← same, own index position m d present here dropped] at foreign

def mutualReaders : Project where
  modules := [
    { group := "org.acme", artifact := "parent", version := "1", isRoot := true
      properties := [("acme", "1")]
      declarations := [
        { coordinate := ⟨"org.acme", "core", "jar", none⟩, version := some "$\x7bacme\x7d" }] },
    { group := "org.acme", artifact := "core", version := "1", parent := some (.inside 0)
      declarations := [
        { coordinate := ⟨"org.acme", "parent", "pom", none⟩, version := some "$\x7bacme\x7d" },
        { coordinate := ⟨"io.netty", "netty-codec", "jar", none⟩, version := some "1.0" }] }]
  root := 0

def mutualGraph : Surroundings :=
  { Manifest.serve { streams := [⟨"org.acme", "*", "2"⟩, ⟨"io.netty", "*", "2.0"⟩] } .alone with
    graph := fun _ => .ok [{ artifact := ⟨⟨"org.acme", "core", "jar", none⟩, "1"⟩ }] }

theorem align_undeclare_own_mutualReaders :
    let codec : Coordinate := ⟨"io.netty", "netty-codec", "jar", none⟩
    let drops (_ position : Nat) : Bool := position == 0
    mutualReaders.undeclare drops ≠ mutualReaders ∧
      align (mutualReaders.undeclare drops) mutualGraph {} = align mutualReaders mutualGraph {} ∧
      ∃ report, (align mutualReaders mutualGraph {}).1 = .ok report ∧ report.Names codec ∧
        mutualReaders.owns codec = false := by
  intro codec drops
  obtain ⟨foreign, undeclare⟩ :=
    align_undeclare_own mutualReaders mutualGraph {} fun _ _ _ => rfl
  refine ⟨by decide, undeclare drops ?_, ?_⟩
  · intro index position m d present here dropped
    obtain rfl : position = 0 := by simpa [drops] using dropped
    match index with
    | 0 | 1 =>
      cases present
      cases here
      decide
  · have names : ∃ report, (align mutualReaders mutualGraph {}).1 = .ok report ∧
        .overrideVersion 1 codec "1.0" "2.0" ∈ report.changes.changes := by
      refine ⟨_, rfl, ?_⟩
      simp only [Candidates.visit, Forest.nodes, List.append_nil]
      decide +kernel
    obtain ⟨report, ends, changed⟩ := names
    have names : report.Names codec := .changed changed rfl
    exact ⟨report, ends, names, foreign report codec ends names⟩

end VersionAlignment
