import VersionAlignment.Proofs.Additions
import VersionAlignment.Proofs.Gaps
import VersionAlignment.Proofs.Injections
import VersionAlignment.Proofs.ManifestChannel
import VersionAlignment.Proofs.NextProject

set_option autoImplicit false

namespace VersionAlignment

open Property

theorem Setting.gt_of_isMove {s : Setting} (keeps : s.options.doNotDowngrade = true)
    {old new : String} (move : s.isMove old new = true) : s.given.order new old = .gt := by
  unfold isMove Version.isMove at move
  cases order : s.given.order new old <;> simp_all

theorem Declaration.version_revised_induction {motive : String → Prop} {d : Declaration}
    {index : Nat} {raw : String} (changes : List Change) (version : d.version = some raw)
    (start : motive raw)
    (replace : ∀ old new, .overrideVersion index d.coordinate old new ∈ changes →
      motive old → motive new) :
    ∃ text, (d.revised index changes).version = some text ∧ motive text := by
  induction changes generalizing d raw with
  | nil => exact ⟨raw, version, start⟩
  | cons change rest ih =>
    have later : ∀ old new, .overrideVersion index d.coordinate old new ∈ rest →
        motive old → motive new := fun old new member => replace old new (.tail _ member)
    change ∃ text, ((revise index d change).revised index rest).version = some text ∧ motive text
    cases change with
    | setProperty | injectProperty | manage => exact ih version start later
    | overrideVersion owner c old new =>
      by_cases hit : owner = index ∧ d.coordinate = c ∧ d.version = some old
      · obtain ⟨rfl, rfl, here⟩ := hit
        obtain rfl : raw = old := Option.some.inj (version.symm.trans here)
        have replaced : revise owner d (.overrideVersion owner d.coordinate raw new) =
            { d with version := some new } := by
          simp [revise, replaceVersion, here]
        rw [replaced]
        exact ih rfl (replace raw new (.head _) start) later
      · have untouched : revise index d (.overrideVersion owner c old new) = d := by
          simp only [revise, replaceVersion]
          grind
        rw [untouched]
        exact ih version start later

/-- The module has a declaration with this key there, and its text stands for this version. -/
def Setting.DeclaresAt (s : Setting) (index position : Nat) (key : Coordinate × Place)
    (current : String) : Prop :=
  ∃ m d raw, s.project.module? index = some m ∧ m.declarations[position]? = some d ∧
    d.key = key ∧ d.version = some raw ∧ (Written.read s index raw).current? = some current

namespace Run

structure Rising (s : Setting) (run : Run) : Prop extends Sound s run where
  raised : ∀ site value, propertyWrite site value ∈ run.changes.changes →
    ∃ current, s.resolve site.owner site.name = .ok (some ⟨site, current⟩) ∧
      s.given.order value current = .gt
  replaced : ∀ index c old new, .overrideVersion index c old new ∈ run.changes.changes →
    ∃ current, (Written.read s index old).current? = some current ∧
      s.given.order new current = .gt

section

variable {s : Setting} {run : Run} [Std.TransCmp s.given.order]

theorem Rising.isLE_of_write (rising : Rising s run) {owner : Nat} {name value : String}
    {r : Resolution} (found : s.resolve owner name = .ok (some r))
    (present : propertyWrite r.site value ∈ run.changes.changes) :
    (s.given.order r.value value).isLE := by
  obtain ⟨current, resolved, greater⟩ := rising.raised r.site value present
  have own : s.resolve r.site.owner r.site.name = .ok (some r) := resolve_site found
  rw [own, Except.ok.injEq, Option.some.injEq] at resolved
  rw [resolved]
  exact Ordering.isLE_of_eq_lt (Std.OrientedCmp.lt_of_gt greater)

theorem Rising.isLE_of_lock (rising : Rising s run) {owner : Nat} {name : String}
    {r : Resolution} {lock : Lock} (found : s.resolve owner name = .ok (some r))
    (locked : run.locks.get? r.site = some lock) : (s.given.order r.value lock.value).isLE := by
  obtain ⟨-, -, value, resolved, same | present⟩ := rising.locked r.site lock locked
  · have own : s.resolve r.site.owner r.site.name = .ok (some r) := resolve_site found
    rw [own, Except.ok.injEq, Option.some.injEq] at resolved
    rw [resolved, same]
    exact Std.ReflCmp.isLE_rfl
  · exact rising.isLE_of_write found present

theorem Rising.gt_of_replaced (rising : Rising s run) (keeps : s.options.doNotDowngrade = true)
    {index : Nat} {raw target : String}
    (replaced : Replaced s run.locks target (Written.read s index raw)) :
    ∃ current, (Written.read s index raw).current? = some current ∧
      s.given.order target current = .gt := by
  generalize read : Written.read s index raw = written at replaced
  cases replaced with
  | inPlace current _ move => exact ⟨_, current, s.gt_of_isMove keeps move⟩
  | @beside name r lock _ _ _ locked _ move =>
    have raised := rising.isLE_of_lock (Written.resolve_of_read read) locked
    have beyond := Std.OrientedCmp.lt_of_gt (s.gt_of_isMove keeps move)
    exact ⟨r.value, rfl, Std.OrientedCmp.gt_of_lt (Std.TransCmp.lt_of_isLE_of_lt raised beyond)⟩

theorem Rising.judged (rising : Rising s run) (keeps : s.options.doNotDowngrade = true)
    (index : Nat) (d : Declaration) (raw : String) :
    Rising s (run.carryOut s index d.coordinate raw (judge s run index d raw)) := by
  refine ⟨rising.toSound.judged index d raw, ?_, ?_⟩
  · intro site value present
    rcases mem_carryOut_changes.1 present with old | decided
    · exact rising.raised site value old
    · obtain ⟨-, -, -, -, name, current, read, move⟩ := written_of_judge decided
      exact ⟨current, resolve_site (Written.resolve_of_read read), s.gt_of_isMove keeps move⟩
  · intro i c old text present
    rcases mem_carryOut_changes.1 present with before | decided
    · exact rising.replaced i c old text before
    · obtain ⟨rfl, rfl, rfl⟩ := Verdict.replaces_own decided
      exact rising.gt_of_replaced keeps (replaced_of_judge decided).2

theorem Rising.step (unforced : s.policy.Unforced) (keeps : s.options.doNotDowngrade = true)
    (rising : Rising s run) (step : Step) : Rising s (step.perform s run) := by
  cases step with
  | property => rwa [perform_property unforced]
  | dependency => rwa [perform_dependency unforced]
  | note message => exact ⟨rising.toSound.note message, rising.raised, rising.replaced⟩
  | declaration index d =>
    simp only [Step.perform, alignDeclaration]
    split
    · exact rising
    · exact rising.judged keeps index d _

theorem rising_declared (unforced : s.policy.Unforced) (keeps : s.options.doNotDowngrade = true) :
    Rising s (declared s) := by
  rw [← perform_steps]
  exact perform_induction ⟨sound_empty s, by simp, by simp⟩
    fun _ step _ rising => rising.step unforced keeps step

theorem Rising.current?_changed (rising : Rising s run) (literal : s.ChannelIsLiteral)
    {index : Nat} {raw current : String}
    (read : (Written.read s index raw).current? = some current) :
    ∃ later, (Written.read { s with project := s.project.applyAll run.changes.changes } index
      raw).current? = some later ∧ (s.given.order current later).isLE := by
  rw [rising.toSound.read_rebound literal (Project.rebound_applyAll _ _)]
  generalize found : Written.read s index raw = written at read
  rcases written with version | ⟨name, _ | _ | r⟩
  · exact ⟨current, read, Std.ReflCmp.isLE_rfl⟩
  · cases read
  · cases read
  · cases read
    refine ⟨_, rfl, ?_⟩
    have resolved := Written.resolve_of_read found
    rw [Resolution.value_rebind]
    cases bound : boundBy run.changes.changes r.site.spot with
    | none => exact Std.ReflCmp.isLE_rfl
    | some value =>
      exact rising.isLE_of_write resolved (rising.toConsistent.write_of_boundBy resolved bound)

theorem Rising.declaresAt_changed (rising : Rising s run) (literal : s.ChannelIsLiteral)
    {index position : Nat} {key : Coordinate × Place} {current : String}
    (declares : s.DeclaresAt index position key current) :
    ∃ later, s.given.order later current ≠ .lt ∧
      { s with project := s.project.applyAll run.changes.changes }.DeclaresAt index position key
        later := by
  obtain ⟨m, d, raw, inside, here, rfl, version, read⟩ := declares
  have reached : ∃ text, (d.revised index run.changes.changes).version = some text ∧
      ∃ between, (Written.read s index text).current? = some between ∧
        (s.given.order current between).isLE := by
    refine d.version_revised_induction run.changes.changes version
      ⟨current, read, Std.ReflCmp.isLE_rfl⟩ ?_
    -- Each replacement in turn leads from a version that is not lower to one that is greater still.
    rintro old new present ⟨between, stands, raised⟩
    obtain ⟨former, stood, greater⟩ := rising.replaced _ _ _ _ present
    obtain rfl : between = former := Option.some.inj (stands.symm.trans stood)
    obtain ⟨asked, covered⟩ := rising.sanctioned _ present
    refine ⟨new, by simp [Written.read, literal _ _ _ covered, Written.current?], ?_⟩
    exact Ordering.isLE_of_eq_lt
      (Std.TransCmp.lt_of_isLE_of_lt raised (Std.OrientedCmp.lt_of_gt greater))
  obtain ⟨text, replaced, between, stands, raised⟩ := reached
  obtain ⟨later, ends, grown⟩ := rising.current?_changed literal stands
  refine ⟨later, Std.OrientedCmp.not_lt_of_isLE (Std.TransCmp.isLE_trans raised grown),
    m.revised index run.changes.changes, d.revised index run.changes.changes, text, ?_, ?_, ?_,
    replaced, ends⟩
  · rw [Project.module?_revised, inside]
    rfl
  · rw [Module.declarations_revised m index rising.toSound.manages_nothing, List.getElem?_map, here]
    rfl
  · have kept := d.kept_revised index run.changes.changes
    simp [Declaration.key, kept.1, kept.2.1]

end

end Run

theorem Change.manages_of_injected {s : Setting} {candidate : Coordinate × Occurrence}
    {change : Change} (injected : change ∈ TransitiveOutcome.injected s candidate) :
    change.Manages := by
  obtain ⟨-, -, -, rfl⟩ := TransitiveOutcome.mem_injected.1 injected
  trivial

theorem Change.gt_of_injected {s : Setting} (keeps : s.options.doNotDowngrade = true)
    {candidate : Coordinate × Occurrence} {owner : Nat} {c : Coordinate} {version former : String}
    {exclusions : List Exclusion}
    (injected : .manage owner c version exclusions former ∈
      TransitiveOutcome.injected s candidate) : s.given.order version former = .gt := by
  obtain ⟨target, -, move, made⟩ := TransitiveOutcome.mem_injected.1 injected
  cases made
  exact s.gt_of_isMove keeps move

theorem align_lowers_nothing (p : Project) (given : Surroundings) (o : Options)
    [Std.TransCmp given.order] (keeps : o.doNotDowngrade = true)
    (unforced : (Policy.ofOptions o).Unforced)
    (literal : (Setting.ofOptions p given o).ChannelIsLiteral) :
    let s := Setting.ofOptions p given o
    let declared := (Run.declared s).changes.changes
    let changed := { s with project := p.applyAll declared }
    (∀ index position key current, s.DeclaresAt index position key current →
      ∃ later, given.order later current ≠ .lt ∧
        changed.DeclaresAt index position key later) ∧
    ∀ report, (align p given o).1 = .ok report →
      (∃ managed, report.changes.changes = declared ++ managed ∧
        ∀ change ∈ managed, change.Manages) ∧
      ∀ owner c version exclusions former,
        .manage owner c version exclusions former ∈ report.changes.changes →
          given.order version former = .gt := by
  intro s declared changed
  have : Std.TransCmp s.given.order := ‹Std.TransCmp given.order›
  constructor
  · intro index position key current declares
    exact (Run.rising_declared unforced keeps).declaresAt_changed literal declares
  · intro report ends
    obtain ⟨managed, grown, asked⟩ := exists_managed ends
    refine ⟨⟨managed, grown, fun change member => ?_⟩, ?_⟩
    · obtain ⟨candidate, injected⟩ := asked change member
      exact Change.manages_of_injected injected
    · intro owner c version exclusions former present
      rw [grown, List.mem_append] at present
      obtain ⟨candidate, injected⟩ := asked _ <| present.resolve_left
        (Run.declared_manages_nothing s owner c version exclusions former)
      exact Change.gt_of_injected keeps injected

def sharedGraph : Surroundings :=
  { twoVersions.serve .alone with
    order := compare
    graph := fun _ => .ok [{ artifact := ⟨⟨"io.netty", "netty-common", "jar", none⟩, "1.0"⟩ }] }

theorem align_lowers_nothing_twoReaders :
    let s := Setting.ofOptions twoReaders sharedGraph { doNotDowngrade := true }
    let changed := { s with project := twoReaders.applyAll (Run.declared s).changes.changes }
    let key : Coordinate × Place := (⟨"io.netty", "netty-codec", "jar", none⟩, .dependencies)
    (∃ later, compare later "1.0" ≠ .lt ∧ changed.DeclaresAt 1 0 key later) ∧
    ∃ report owner c version exclusions, (align s.project s.given s.options).1 = .ok report ∧
      .manage owner c version exclusions "1.0" ∈ report.changes.changes ∧
      compare version "1.0" = .gt := by
  intro s changed key
  have : Std.TransCmp s.given.order := inferInstanceAs (Std.TransCmp (compare (α := String)))
  have literal : s.ChannelIsLiteral := by
    intro c current target covered
    obtain ⟨stream, member, rfl⟩ := ChannelIndex.exists_stream_of_version? covered
    have literal : twoVersions.IsLiteral := by unfold Manifest.IsLiteral; decide
    exact literal stream member
  obtain ⟨raised, reported⟩ :=
    align_lowers_nothing s.project s.given s.options rfl ⟨rfl, rfl⟩ literal
  constructor
  · have declares : s.DeclaresAt 1 0 key "1.0" :=
      ⟨_, _, "$\x7bnetty\x7d", rfl, rfl, rfl, rfl, by decide +kernel⟩
    exact raised 1 0 key "1.0" declares
  · have ends : ∃ report, (align s.project s.given s.options).1 = .ok report ∧
        .manage 0 ⟨"io.netty", "netty-common", "jar", none⟩ "2.0" [] "1.0" ∈
          report.changes.changes := by
      refine ⟨_, rfl, ?_⟩
      simp only [Candidates.visit, Forest.nodes, List.append_nil]
      decide +kernel
    obtain ⟨report, ends, managed⟩ := ends
    exact ⟨report, 0, _, _, _, ends, managed, (reported report ends).2 _ _ _ _ _ managed⟩

end VersionAlignment
