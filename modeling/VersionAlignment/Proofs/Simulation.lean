import VersionAlignment.Proofs.SecondRun

set_option autoImplicit false

namespace VersionAlignment

open Property

theorem Setting.Regular.isMove_of_covered {s : Setting} (regular : s.Regular) {c : Coordinate}
    {current target other : String} (covered : s.given.channel c current = some target)
    (again : s.given.channel c target = some other) : s.isMove target other = false := by
  rw [regular.steady c target current, covered, Option.some.injEq] at again
  exact again ▸ isMove_self regular.maven target

theorem Live.of_next {s : Setting} {more : List Change} {run later : Run} (sound : Run.Sound s run)
    (regular : s.Regular) {index : Nat} {d : Declaration} {raw text target : String}
    {changes : List Change}
    (live : Live (s.next more) later index (d.revised index changes) text target) :
    Live s run index d raw target := by
  obtain ⟨coordinate, -, scope⟩ := d.kept_revised index changes
  have foreign := live.foreign
  have heeded := live.heeded
  have covered := live.covered
  rw [Setting.next, Project.owns_applyAll, coordinate] at foreign
  rw [Declaration.effectiveScope, scope, coordinate] at heeded
  rw [coordinate] at covered
  exact ⟨foreign, by simp [sound.overridden], heeded, (regular.steady _ _ _).trans covered⟩

namespace Run

variable {s : Setting} {more : List Change} {run later : Run}

theorem inert_of_not_live {index : Nat} {d : Declaration} {raw : String}
    (undecided : ∀ target, ¬ Live s run index d raw target) :
    (judge s run index d raw).change? index d.coordinate raw = none ∧
      (judge s run index d raw).lock? = none := by
  have judged := judge_judged s run index d raw
  generalize judge s run index d raw = v at judged
  cases judged with
  | exempt | ignored | silent | uncovered => exact ⟨rfl, rfl⟩
  | live live => exact absurd live (undecided _)

namespace Trails

theorem note (trails : Trails s more run later) (first second : String) :
    Trails s more (run.note first) (later.note second) where
  sound := trails.sound.note second
  idle := trails.idle
  locked := trails.locked

theorem managed (trails : Trails s more run later) (regular : s.Regular) (index : Nat)
    {d : Declaration} {current target : String} (version : d.version = some target)
    (covered : s.given.channel d.coordinate current = some target) :
    Trails s more run (alignDeclaration (s.next more) index later d) := by
  obtain ⟨unchanged, free⟩ := trails.sound.inert_of_literal trails.idle index d
    (regular.literal _ _ _ covered) fun other again => regular.isMove_of_covered covered again
  simp only [alignDeclaration, version]
  exact trails.carryOut unchanged (by simp [free])

theorem decided (trails : Trails s more run later) (regular : s.Regular)
    (managing : s.Manages more) (sound : Sound s run) {index : Nat} {d e : Declaration}
    (revised : d.revised index (declared s).changes.changes = e) {raw text : String}
    (version : d.version = some raw) (version' : e.version = some text)
    (settled : ∀ target, Live s run index d raw target →
      Settled s run (declared s) index d.coordinate raw target (Written.read s index raw)) :
    (judge (s.next more) later index e text).change? index e.coordinate text = none ∧
      ∀ site value, (judge (s.next more) later index e text).lock? = some (site, value) →
        ∃ other old, other.spot = site.spot ∧
          (run.carryOut s index d.coordinate raw (judge s run index d raw)).locks.get? other =
            some old := by
  by_cases decides : ∃ target, Live (s.next more) later index e text target
  · obtain ⟨target, live'⟩ := decides
    subst revised
    have live : Live s run index d raw target := live'.of_next sound regular
    have same : ∀ old new,
        .overrideVersion index d.coordinate old new ∈ (declared s).changes.changes → new = target :=
      fun old new present =>
        (sound_declared regular.unforced).eq_target_of_override regular.steady live.covered present
    have changed := Declaration.version_revised version same
    rw [version', Option.some.injEq] at changed
    -- The text of the second run is the target where it was replaced, else it is as before.
    by_cases replaced :
        .overrideVersion index d.coordinate raw target ∈ (declared s).changes.changes
    · rw [if_pos replaced] at changed
      subst changed
      have literal : reference? text = none := regular.literal _ _ _ live'.covered
      obtain ⟨unchanged, free⟩ := trails.sound.inert_of_literal trails.idle index _
        literal fun other again => regular.isMove_of_covered live'.covered again
      exact ⟨unchanged, by simp [free]⟩
    · rw [if_neg replaced] at changed
      subst changed
      exact ⟨trails.unchanged regular managing sound live' (settled target live) replaced,
        fun site value locks => Trails.locks regular managing live live' locks⟩
  · obtain ⟨unchanged, free⟩ := inert_of_not_live (not_exists.1 decides)
    exact ⟨unchanged, by simp [free]⟩

theorem declaration (trails : Trails s more run later) (regular : s.Regular)
    (managing : s.Manages more) (sound : Sound s run) {index : Nat} {d : Declaration}
    (settled : ∀ raw target, d.version = some raw → Live s run index d raw target →
      Settled s run (declared s) index d.coordinate raw target (Written.read s index raw)) :
    Trails s more (alignDeclaration s index run d) (alignDeclaration (s.next more) index later
      (d.revised index (declared s).changes.changes)) := by
  have further : Trails s more (alignDeclaration s index run d) later :=
    trails.mono fun _ _ => (alignDeclaration_commits s index run d).locks_stay
  generalize revised : d.revised index (declared s).changes.changes = e
  cases version' : e.version with
  | none => simpa [alignDeclaration, version'] using further
  | some text =>
    cases version : d.version with
    | none =>
      have bare := Declaration.version_revised_none version index (declared s).changes.changes
      simp [revised, version'] at bare
    | some raw =>
      obtain ⟨unchanged, locks⟩ := trails.decided regular managing sound revised version version'
        fun target live => settled raw target version live
      simp only [alignDeclaration, version, version'] at further ⊢
      exact further.carryOut unchanged locks

end Trails

inductive Beside (s : Setting) : List Step → List Step → Prop
  | nil : Beside s [] []
  | note {first second : String} {part others : List Step} : Beside s part others →
      Beside s (.note first :: part) (.note second :: others)
  | declaration {index : Nat} {d : Declaration} {part others : List Step} : Beside s part others →
      Beside s (.declaration index d :: part)
        (.declaration index (d.revised index (declared s).changes.changes) :: others)
  | managed {index : Nat} {d : Declaration} {current target : String} {part others : List Step} :
    d.version = some target → s.given.channel d.coordinate current = some target →
      Beside s part others → Beside s part (.declaration index d :: others)

theorem Beside.append {a b c d : List Step} (first : Beside s a b) (second : Beside s c d) :
    Beside s (a ++ c) (b ++ d) := by
  induction first with
  | nil => exact second
  | note _ ih => exact .note ih
  | declaration _ ih => exact .declaration ih
  | managed version covered _ ih => exact .managed version covered ih

theorem Beside.trails {part others : List Step} (beside : Beside s part others)
    (regular : s.Regular) (managing : s.Manages more) (all : ∀ step ∈ part, step ∈ steps s)
    (sound : Sound s run) (ends : declared s = run.perform s part)
    (trails : Trails s more run later) :
    Trails s more (run.perform s part) (later.perform (s.next more) others) := by
  induction beside generalizing run later with
  | nil => exact trails
  | @note first second _ _ _ ih =>
    exact ih (fun step member => all step (List.mem_cons_of_mem _ member)) (sound.note first) ends
      (trails.note first second)
  | @declaration index d part _ _ ih =>
    have rest : ∀ step ∈ part, step ∈ steps s :=
      fun step member => all step (List.mem_cons_of_mem _ member)
    refine ih rest (sound.alignDeclaration index d) ends
      (trails.declaration regular managing sound ?_)
    -- What the step settles stays settled to the end of the first run.
    intro raw target version live
    have settled := (sound.settled regular.maven live).perform regular.unforced rest
    rw [ends, perform_cons]
    simpa [Step.perform, alignDeclaration, version] using settled
  | @managed index _ _ _ _ _ version covered _ ih =>
    exact ih all sound ends (trails.managed regular index version covered)

end Run

theorem firstDeclarations_append (seen : List (Coordinate × Place)) (as bs : List Declaration) :
    ∃ later, firstDeclarations seen (as ++ bs) =
      firstDeclarations seen as ++ firstDeclarations later bs := by
  induction as generalizing seen with
  | nil => exact ⟨seen, rfl⟩
  | cons d as ih =>
    by_cases old : d.key ∈ seen
    · simpa [firstDeclarations, old] using ih seen
    · simpa [firstDeclarations, old] using ih (d.key :: seen)

theorem firstDeclarations_map {f : Declaration → Declaration} (same : ∀ d, (f d).key = d.key)
    (seen : List (Coordinate × Place)) (ds : List Declaration) :
    firstDeclarations seen (ds.map f) = (firstDeclarations seen ds).map f := by
  induction ds generalizing seen with
  | nil => rfl
  | cons d ds ih =>
    simp only [List.map_cons, firstDeclarations, same]
    split <;> simp [ih]

namespace Run

variable {s : Setting} {more : List Change}

theorem perform_overrideSteps_eq (unforced : s.policy.Unforced) (run : Run) (entry : Module × Nat) :
    run.perform s (overrideSteps s entry) = run := by
  refine perform_induction (motive := fun later => later = run) rfl ?_
  rintro later step member rfl
  obtain ⟨m, index⟩ := entry
  simp only [overrideSteps] at member
  split at member
  · cases member
  · rcases List.mem_append.1 member with property | dependency
    · obtain ⟨entry, -, rfl⟩ := List.mem_map.1 property
      exact perform_property unforced ..
    · obtain ⟨d, -, rfl⟩ := List.mem_map.1 dependency
      exact perform_dependency unforced ..

theorem declared_eq_perform (unforced : s.policy.Unforced) :
    declared s = ({} : Run).perform s (s.project.indexed.flatMap (alignmentSteps s)) := by
  have start : ({} : Run).perform s (s.project.indexed.flatMap (overrideSteps s)) = {} := by
    rw [perform_flatMap s (fun run _ => run) (overrideSteps s) (perform_overrideSteps_eq unforced)]
    induction s.project.indexed with
    | nil => rfl
    | cons entry rest ih => exact ih
  rw [← perform_steps, steps, perform_append, start]

end Run

end VersionAlignment
