import VersionAlignment.Proofs.ManifestLookups
import VersionAlignment.Proofs.TransitivePass

set_option autoImplicit false

namespace VersionAlignment

theorem Verdict.ofTarget_ne_uncovered (s : Setting) (locks : Locks) (target : String)
    (written : Written) : ofTarget s locks target written ≠ .uncovered := by
  have targeted := ofTarget_targeted s locks target written
  generalize ofTarget s locks target written = v at targeted
  rintro same
  cases targeted with
  | inPlace =>
    unfold ofInline at same
    split at same <;> cases same
  | unresolved | unresolvedIgnored | ignored => cases same
  | locked =>
    unfold ofLocked at same
    split at same
    · cases same
    · split at same
      · cases same
      · split at same <;> cases same
  | unlocked =>
    unfold ofUnlocked at same
    split at same
    · cases same
    · split at same <;> cases same

theorem Verdict.ofIgnored_ne_uncovered (s : Setting) (c : Coordinate) (reason : Reason)
    (written : Written) : ofIgnored s c reason written ≠ .uncovered := by
  unfold ofIgnored
  split
  · simp
  · split <;> simp

theorem judge_eq_uncovered {s : Setting} {run : Run} {index : Nat} {d : Declaration}
    {raw : String} : judge s run index d raw = .uncovered ↔
      s.project.owns d.coordinate = false ∧ (index, d.coordinate) ∉ run.overridden ∧
      s.policy.ignores? d.coordinate d.effectiveScope = none ∧
      s.given.channel d.coordinate ((Written.read s index raw).current?.getD raw) = none := by
  unfold judge
  split
  · next exempt =>
    simp only [Bool.or_eq_true, List.contains_iff_mem] at exempt
    grind
  · next asked =>
    simp only [Bool.or_eq_true, List.contains_iff_mem, not_or, Bool.not_eq_true] at asked
    simp only [asked, true_and, not_false_eq_true]
    cases ignored : s.policy.ignores? d.coordinate d.effectiveScope with
    | some reason => simp [Verdict.ofIgnored_ne_uncovered]
    | none =>
      cases covered : s.given.channel d.coordinate
          ((Written.read s index raw).current?.getD raw) <;>
        simp [Verdict.ofTarget_ne_uncovered]

theorem Policy.ignores?_eq_none {policy : Policy} {c : Coordinate} {scope : String} :
    policy.ignores? c scope = none ↔
      policy.ignoresStream c = false ∧ policy.ignoresScope scope = false := by
  unfold ignores?
  cases policy.ignoresStream c <;> cases policy.ignoresScope scope <;> simp

namespace Run

variable {s : Setting} {run : Run} {c : Coordinate}

def Step.uncovered? (s : Setting) (run : Run) : Step → Option Coordinate
  | .declaration index d => d.version.bind fun raw =>
    if judge s run index d raw = .uncovered then some d.coordinate else none
  | _ => none

theorem notCovered_perform (step : Step) : (step.perform s run).notCovered =
    match step.uncovered? s run with
    | some c => Sorted.insert c run.notCovered
    | none => run.notCovered := by
  cases step with
  | property m index entry => exact congrArg Prod.fst (Override.property_findings s index run m entry)
  | dependency index d => exact congrArg Prod.fst (Override.declaration_findings s index run d)
  | note => rfl
  | declaration index d =>
    rw [Step.perform, Step.uncovered?]
    unfold alignDeclaration
    cases d.version with
    | none => rfl
    | some raw =>
      dsimp only [Option.bind_some]
      rw [carryOut_notCovered]
      split <;> simp_all

theorem ascending_notCovered_perform {steps : List Step}
    (ascending : Sorted.Ascending run.notCovered) :
    Sorted.Ascending (run.perform s steps).notCovered := by
  refine perform_induction (motive := fun run => Sorted.Ascending run.notCovered) ascending ?_
  intro run step _ held
  rw [notCovered_perform]
  split
  · exact Sorted.ascending_insert held
  · exact held

theorem overridden_perform_alignment {step : Step}
    (member : step ∈ s.project.indexed.flatMap (alignmentSteps s)) :
    (step.perform s run).overridden = run.overridden := by
  cases step with
  | note => rfl
  | declaration index d => exact overridden_alignDeclaration s index run d
  | property | dependency =>
    obtain ⟨⟨m, index⟩, -, own⟩ := List.mem_flatMap.1 member
    simp only [alignmentSteps] at own
    split at own <;> simp at own

theorem uncovered?_congr {other : Run} (same : other.overridden = run.overridden) (step : Step) :
    step.uncovered? s other = step.uncovered? s run := by
  cases step with
  | declaration index d =>
    simp only [Step.uncovered?, judge_eq_uncovered, same]
  | _ => rfl

theorem mem_notCovered_perform {steps : List Step}
    (alignment : ∀ step ∈ steps, step ∈ s.project.indexed.flatMap (alignmentSteps s)) :
    c ∈ (run.perform s steps).notCovered ↔
      c ∈ run.notCovered ∨ ∃ step ∈ steps, step.uncovered? s run = some c := by
  induction steps generalizing run with
  | nil => simp
  | cons first rest ih =>
    obtain ⟨own, later⟩ := List.forall_mem_cons.1 alignment
    -- What has been overridden stays, so later steps find what they would find now.
    have same : ∀ step : Step, step.uncovered? s (first.perform s run) = step.uncovered? s run :=
      uncovered?_congr (overridden_perform_alignment own)
    have here : c ∈ (first.perform s run).notCovered ↔
        c ∈ run.notCovered ∨ first.uncovered? s run = some c := by
      rw [notCovered_perform]
      cases first.uncovered? s run with
      | none => simp
      | some d => simp [Sorted.mem_insert, or_comm, eq_comm]
    rw [perform_cons, ih later, here, or_assoc]
    simp only [same, List.exists_mem_cons_iff]

theorem notCovered_overrides (s : Setting) : (Override.all s {}).notCovered = [] := by
  suffices same : (Override.all s {}).findings = ({} : Run).findings from congrArg Prod.fst same
  rw [overrides_eq]
  refine perform_induction (motive := fun run => run.findings = ({} : Run).findings) rfl ?_
  intro run step member same
  cases step with
  | property m index entry => exact (Override.property_findings s index run m entry).trans same
  | dependency index d => exact (Override.declaration_findings s index run d).trans same
  | note => exact same
  | declaration =>
    obtain ⟨entry, -, own⟩ := List.mem_flatMap.1 member
    exact absurd own declaration_not_mem_overrideSteps

theorem forced_of_overridden {entry : Nat × Coordinate}
    (settled : entry ∈ (Override.all s {}).overridden) :
    (s.policy.dependencyOverride? entry.2).isSome := by
  suffices forced : ∀ entry ∈ (Override.all s {}).overridden,
      (s.policy.dependencyOverride? entry.2).isSome from forced entry settled
  rw [overrides_eq]
  refine perform_induction (motive := fun run => ∀ entry ∈ run.overridden,
    (s.policy.dependencyOverride? entry.2).isSome) (by simp) ?_
  intro run step _ held entry member
  rcases mem_overridden_perform.1 member with before | ⟨d, raw, wanted, -, same, asks⟩
  · exact held entry before
  · simp [← same, asks.wanted]

end Run

/-- The channel is asked about the declaration, whether its version resolves or not. -/
structure Setting.Consults (s : Setting) (d : Declaration) : Prop where
  versioned : d.version.isSome
  foreign : s.project.owns d.coordinate = false
  free : s.policy.dependencyOverride? d.coordinate = none
  stream : s.policy.ignoresStream d.coordinate = false
  scope : s.policy.ignoresScope d.effectiveScope = false

namespace Run

variable {s : Setting} {man : Manifest} {c : Coordinate} {index : Nat} {m : Module}
  {d : Declaration}

theorem overridden_iff_forced {raw : String} (heeds : s.Heeds index m)
    (declares : d ∈ m.declarations) (version : d.version = some raw)
    (foreign : s.project.owns d.coordinate = false) :
    (index, d.coordinate) ∈ (Override.all s {}).overridden ↔
      s.policy.dependencyOverride? d.coordinate ≠ none := by
  constructor
  · exact fun settled => Option.isSome_iff_ne_none.1 (forced_of_overridden settled)
  · intro forced
    obtain ⟨wanted, asked⟩ := Option.ne_none_iff_exists'.1 forced
    exact mem_overridden_all heeds declares ⟨version, asked, foreign⟩

theorem uncovered?_overrides
    (silent : ∀ c version, s.given.channel c version = none ↔ ¬ man.Covers c)
    (heeds : s.Heeds index m) (declares : d ∈ m.declarations) :
    (Step.declaration index d).uncovered? s (Override.all s {}) = some c ↔
      ¬ man.Covers c ∧ s.Consults d ∧ d.coordinate = c := by
  cases version : d.version with
  | none =>
    have idle : ¬ s.Consults d := fun consults => by simpa [version] using consults.versioned
    simp [Step.uncovered?, version, idle]
  | some raw =>
    have judged : judge s (Override.all s {}) index d raw = .uncovered ↔
        s.Consults d ∧ ¬ man.Covers d.coordinate := by
      rw [judge_eq_uncovered, silent, Policy.ignores?_eq_none]
      constructor
      · rintro ⟨foreign, free, ⟨stream, scope⟩, missing⟩
        rw [overridden_iff_forced heeds declares version foreign, not_not] at free
        exact ⟨⟨by simp [version], foreign, free, stream, scope⟩, missing⟩
      · rintro ⟨⟨-, foreign, free, stream, scope⟩, missing⟩
        rw [overridden_iff_forced heeds declares version foreign, not_not]
        exact ⟨foreign, free, ⟨stream, scope⟩, missing⟩
    simp only [Step.uncovered?, version, Option.bind_some, judged, Option.ite_none_right_eq_some,
      Option.some.injEq]
    constructor
    · rintro ⟨⟨consults, missing⟩, rfl⟩
      exact ⟨missing, consults, rfl⟩
    · rintro ⟨missing, consults, rfl⟩
      exact ⟨⟨consults, missing⟩, rfl⟩

theorem mem_notCovered_declared
    (silent : ∀ c version, s.given.channel c version = none ↔ ¬ man.Covers c) :
    c ∈ (declared s).notCovered ↔ ¬ man.Covers c ∧
      ∃ index m d, s.Heeds index m ∧ d.IsFirst m.declarations ∧ s.Consults d ∧
        d.coordinate = c := by
  have found {index : Nat} {m : Module} {d : Declaration} (heeds : s.Heeds index m)
      (first : d.IsFirst m.declarations) :
      (Step.declaration index d).uncovered? s (Override.all s {}) = some c ↔
        ¬ man.Covers c ∧ s.Consults d ∧ d.coordinate = c := by
    obtain ⟨before, after, split, -⟩ := first
    exact uncovered?_overrides silent heeds (by simp [split])
  rw [declared_eq, mem_notCovered_perform fun _ member => member, notCovered_overrides]
  simp only [List.not_mem_nil, false_or]
  constructor
  · rintro ⟨step, member, uncovers⟩
    -- Only the declarations that take part have steps that find anything.
    cases step with
    | declaration index d =>
      obtain ⟨m, present, heeded, first⟩ := declaration_mem_steps.1 (alignment_mem_steps member)
      obtain ⟨missing, consults, own⟩ := (found ⟨present, heeded⟩ first).1 uncovers
      exact ⟨missing, index, m, d, ⟨present, heeded⟩, first, consults, own⟩
    | property | dependency | note => cases uncovers
  · rintro ⟨missing, index, m, d, heeds, first, consults, own⟩
    refine ⟨.declaration index d, ?_, (found heeds first).2 ⟨missing, consults, own⟩⟩
    refine List.mem_flatMap.2 ⟨(m, index), mem_indexed.2 heeds.present, ?_⟩
    simpa [alignmentSteps, heeds.heeded, mem_firstDeclarations] using first

end Run

theorem TransitiveOutcome.mem_notCovered_visits {s : Setting} {man : Manifest} {c : Coordinate}
    {graphs : List Forest}
    (silent : ∀ c version, s.given.channel c version = none ↔ ¬ man.Covers c) :
    c ∈ (ofCandidates s (graphs.foldl (Candidates.visit s) [])).notCovered ↔
      ¬ man.Covers c ∧ Candidates.Undeclared s c ∧ ∃ node, Candidates.Occurs s graphs c node := by
  rw [mem_notCovered, ← Candidates.mem_keys_visits]
  simp only [silent, exists_and_right, List.mem_map, Prod.exists]
  rw [and_comm]
  simp

theorem align_notCovered_exact (p : Project) (given : Surroundings) (o : Options) (man : Manifest)
    (graphs : Module → Forest)
    (served : o.injectTransitiveDependencies = true → ∀ m ∈ p.modules,
      (Policy.ofOptions o).ignoresModule m = false → given.graph m = .ok (graphs m)) :
    let s := man.setting p given o
    let heeded := (p.modules.filter fun m => !s.policy.ignoresModule m).map graphs
    ∃ report, (align p (man.serve given) o).1 = .ok report ∧
      Sorted.Ascending report.notCovered ∧
      ∀ c, c ∈ report.notCovered ↔ ¬ man.Covers c ∧
        ((∃ index m d, s.Heeds index m ∧ d.IsFirst m.declarations ∧ s.Consults d ∧
            d.coordinate = c) ∨
          o.injectTransitiveDependencies = true ∧ Candidates.Undeclared s c ∧
            ∃ node, Candidates.Occurs s heeded c node) := by
  intro s heeded
  have silent : ∀ c version, s.given.channel c version = none ↔ ¬ man.Covers c :=
    fun c _ => ChannelIndex.version?_eq_none
  have declared (c : Coordinate) := Run.mem_notCovered_declared (c := c) silent
  have ascending : Sorted.Ascending (Run.declared s).notCovered := by
    rw [Run.declared_eq]
    refine Run.ascending_notCovered_perform ?_
    rw [Run.notCovered_overrides]
    exact List.Pairwise.nil
  cases inject : o.injectTransitiveDependencies with
  | false =>
    refine ⟨(Run.declared s).toReport, align_eq_ok.2 (.inl ⟨inject, rfl⟩), ascending, fun c => ?_⟩
    exact (declared c).trans (by simp)
  | true =>
    have gathered := Candidates.gather_of_served (s := s) (served inject) []
    refine ⟨_, align_eq_ok.2 (.inr ⟨inject, _, gathered, rfl⟩), Sorted.ascending_union ascending,
      fun c => ?_⟩
    have transitive : c ∈ (TransitiveOutcome.ofCandidates s
        (heeded.foldl (Candidates.visit s) [])).notCovered ↔ _ :=
      TransitiveOutcome.mem_notCovered_visits silent
    refine Sorted.mem_union.trans ((or_congr (declared c) transitive).trans ?_)
    rw [← and_or_left]
    simp

def strayReader : Project where
  modules := [{
    group := "org.acme", artifact := "core", version := "1", isRoot := true
    declarations := [
      { coordinate := ⟨"io.netty", "netty-codec", "jar", none⟩, version := some "1.0" },
      { coordinate := ⟨"org.slf4j", "slf4j-api", "jar", none⟩
        version := some "$\x7bslf4j\x7d" }] }]
  root := 0

theorem align_notCovered_exact_strayReader :
    let man : Manifest := { streams := [⟨"io.netty", "*", "2.0"⟩] }
    let junit : GraphNode := { artifact := ⟨⟨"junit", "junit", "jar", none⟩, "4.13"⟩ }
    let given : Surroundings := { Surroundings.alone with graph := fun _ => .ok [junit] }
    ∃ report, (align strayReader (man.serve given) {}).1 = .ok report ∧
      ⟨"org.slf4j", "slf4j-api", "jar", none⟩ ∈ report.notCovered ∧
      junit.artifact.coordinate ∈ report.notCovered ∧
      ⟨"io.netty", "netty-codec", "jar", none⟩ ∉ report.notCovered := by
  intro man junit given
  obtain ⟨report, ends, -, members⟩ := align_notCovered_exact strayReader given {} man
    (fun _ => [junit]) fun _ _ _ _ => rfl
  refine ⟨report, ends, (members _).2 ⟨by decide, .inl ?_⟩, (members _).2 ⟨by decide, .inr ?_⟩,
    fun listed => ((members _).1 listed).1 (by decide)⟩
  · exact ⟨0, _, _, ⟨rfl, rfl⟩, ⟨[_], [], rfl, by decide⟩, ⟨rfl, by decide, rfl, rfl, rfl⟩, rfl⟩
  · refine ⟨rfl, ⟨by decide, by decide, rfl⟩, junit, ⟨[junit], ?_, .root List.mem_cons_self⟩, rfl,
      rfl⟩
    exact List.mem_cons_self

end VersionAlignment
