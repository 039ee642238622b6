import VersionAlignment.Proofs.PropertyOverrides
import VersionAlignment.Proofs.RedeclaredRuns
import VersionAlignment.Proofs.WalkFrame

set_option autoImplicit false

namespace VersionAlignment

open Property

/-- The version of a declaration leads to a property that is set by hand and is no alias. -/
def Setting.Behind (s : Setting) (index : Nat) (d : Declaration) : Prop :=
  ∃ raw name spot m value wanted, d.version = some raw ∧ reference? raw = some name ∧
    Visits (insideMove s.project) ⟨index, name⟩ spot ∧ s.project.module? spot.owner = some m ∧
    s.policy.ignoresModule m = false ∧ m.property? spot.name = some value ∧
    reference? value = none ∧ s.policy.propertyOverride? spot.name = some wanted

theorem Property.site_of_visits {p : Project}
    {outside : Artifact → String → Except PropertyError (Option String)} {owner : Nat}
    {name value : String} {r : Resolution} {spot : Spot Nat}
    (found : resolve p outside owner name = .ok (some r))
    (visits : Visits (insideMove p) ⟨owner, name⟩ spot)
    (stop : insideMove p spot = .stop (.literal spot value)) :
    r.site = ⟨spot.owner, spot.name, false⟩ := by
  unfold resolve at found
  split at found
  · cases found
  · next ends => cases stop_unique ends visits stop
  · next ends =>
    cases stop_unique ends visits stop
    cases found
    rfl
  · next ends => cases stop_unique ends visits stop

namespace Run

variable {s : Setting} {run other : Run} {index : Nat}

structure Agrees (run other : Run) : Prop where
  locks : other.locks = run.locks
  overridden : other.overridden = run.overridden
  changes : other.changes = run.changes

theorem Agrees.symm (agrees : Agrees run other) : Agrees other run :=
  ⟨agrees.locks.symm, agrees.overridden.symm, agrees.changes.symm⟩

theorem Agrees.trans {third : Run} (first : Agrees run other) (second : Agrees other third) :
    Agrees run third :=
  ⟨second.locks.trans first.locks, second.overridden.trans first.overridden,
    second.changes.trans first.changes⟩

def Holds (s : Setting) (run : Run) : Prop :=
  ∀ site lock, (Override.all s {}).locks.get? site = some lock → run.locks.get? site = some lock

theorem Holds.alignDeclaration (holds : Holds s run) (d : Declaration) :
    Holds s (alignDeclaration s index run d) :=
  fun site lock locked =>
    (alignDeclaration_commits s index run d).locks_stay (holds site lock locked)

end Run

theorem Verdict.idle_of_behind {s : Setting} {run : Run} {index : Nat} {d : Declaration}
    {raw name : String} {site : Site} {lock : Lock} (c : Coordinate)
    (apart : s.options.inlineVersions = false) (named : reference? raw = some name)
    (leads : ∀ r, s.resolve index name = .ok (some r) → r.site = site)
    (locked : run.locks.get? site = some lock) (forced : lock.origin = .override) :
    (judge s run index d raw).change? index c raw = none ∧
      (judge s run index d raw).lock? = none := by
  have judged := judge_judged s run index d raw
  generalize judge s run index d raw = v at judged
  cases judged with
  | exempt | ignored | silent | uncovered => exact ⟨rfl, rfl⟩
  | @live target live =>
    have read : Written.read s index raw = .reference name (s.resolve index name) := by
      simp [Written.read, named]
    have targeted := ofTarget_targeted s run.locks target (Written.read s index raw)
    rw [read] at targeted ⊢
    generalize Verdict.ofTarget s run.locks target _ = v at targeted
    generalize found : s.resolve index name = resolved at targeted
    cases targeted with
    | inPlace _ place => simp [apart] at place
    | unresolved | unresolvedIgnored | ignored => exact ⟨rfl, rfl⟩
    | locked _ _ _ here =>
      rw [leads _ found, locked, Option.some.injEq] at here
      subst here
      simp [ofLocked, forced, change?, lock?]
    | unlocked _ _ _ free =>
      rw [leads _ found, locked] at free
      cases free

theorem Setting.Behind.idle {s : Setting} {run : Run} {index : Nat} {d : Declaration}
    {raw : String} (behind : s.Behind index d) (holds : Run.Holds s run)
    (apart : s.options.inlineVersions = false) (version : d.version = some raw) :
    (judge s run index d raw).change? index d.coordinate raw = none ∧
      (judge s run index d raw).lock? = none := by
  obtain ⟨text, name, spot, m, value, wanted, here, named, visits, present, heeded, own, literal,
    forced⟩ := behind
  obtain rfl : raw = text := Option.some.inj (version.symm.trans here)
  have stop : insideMove s.project spot = .stop (.literal spot value) := by
    simp [insideMove, present, own, literal]
  have inside : (⟨spot.owner, spot.name, false⟩ : Site).outside = false := rfl
  have locked := Override.get?_all_of_own inside present heeded own forced
  exact Verdict.idle_of_behind d.coordinate apart named
    (fun r found => site_of_visits found visits stop) (holds _ _ locked) rfl

namespace Run

variable {s : Setting} {run other : Run} {index : Nat}

theorem Agrees.alignDeclaration (agrees : Agrees run other)
    (f : Nat → List Declaration → List Declaration) (d : Declaration) :
    Agrees (alignDeclaration s index run d) (alignDeclaration (s.redeclare f) index other d) := by
  unfold Run.alignDeclaration
  split
  · exact agrees
  · rw [judge_redeclare s f agrees.locks agrees.overridden]
    refine ⟨?_, ?_, ?_⟩
    · rw [carryOut_locks, carryOut_locks, agrees.locks]
    · rw [carryOut_overridden, carryOut_overridden, agrees.overridden]
    · rw [carryOut_changes, carryOut_changes, agrees.changes]

theorem agrees_alignDeclaration (holds : Holds s run) (apart : s.options.inlineVersions = false)
    {d : Declaration} (behind : s.Behind index d) :
    Agrees run (Run.alignDeclaration s index run d) := by
  unfold Run.alignDeclaration
  split
  · exact ⟨rfl, rfl, rfl⟩
  · next raw version =>
    obtain ⟨unchanged, free⟩ := behind.idle holds apart version
    exact ⟨by rw [carryOut_locks, free], carryOut_overridden ..,
      by rw [carryOut_changes, unchanged]⟩

theorem Agrees.sameBut (agrees : Agrees run other) (holds : Holds s run)
    (apart : s.options.inlineVersions = false) (f : Nat → List Declaration → List Declaration)
    {as bs : List Declaration} (same : SameBut (s.Behind index) as bs) :
    Agrees (as.foldl (Run.alignDeclaration s index) run)
      (bs.foldl (Run.alignDeclaration (s.redeclare f) index) other) := by
  refine (same.foldl_rel (R := fun run other => Agrees run other ∧ Holds s run)
    ?_ ?_ ?_ ⟨agrees, holds⟩).1
  · exact fun _ _ d ⟨agrees, holds⟩ => ⟨agrees.alignDeclaration f d, holds.alignDeclaration d⟩
  · intro run other d behind ⟨agrees, holds⟩
    have idle := agrees_alignDeclaration holds apart behind
    exact ⟨idle.symm.trans agrees, holds.alignDeclaration d⟩
  · intro run other d behind ⟨agrees, holds⟩
    have idle := agrees_alignDeclaration holds apart behind
    exact ⟨idle.trans (agrees.alignDeclaration f d), holds⟩

theorem Holds.alignModule (holds : Holds s run) (entry : Module × Nat) :
    Holds s (alignModule s run entry) := by
  unfold Run.alignModule
  dsimp only
  split
  · exact holds
  · exact List.foldlRecOn _ _ holds fun _ holds d _ => holds.alignDeclaration d

end Run

namespace Run

variable {s : Setting} {run other : Run}

theorem Agrees.alignModule (agrees : Agrees run other) (holds : Holds s run)
    (apart : s.options.inlineVersions = false) (f : Nat → List Declaration → List Declaration)
    (m : Module) (index : Nat)
    (same : SameBut (s.Behind index) (firstDeclarations [] m.declarations)
      (firstDeclarations [] (f index m.declarations))) :
    Agrees (alignModule s run (m, index)) (alignModule (s.redeclare f) other
      ({ m with declarations := f index m.declarations }, index)) := by
  by_cases ignored : s.policy.ignoresModule m = true
  · simp only [Run.alignModule, s.policy_redeclare, Policy.ignoresModule_redeclared, ignored,
      if_true]
    exact ⟨agrees.locks, agrees.overridden, agrees.changes⟩
  · simp only [Run.alignModule, s.policy_redeclare, Policy.ignoresModule_redeclared, ignored,
      Bool.false_eq_true, if_false]
    have noted (a b : String) : Agrees (run.note a) (other.note b) :=
      ⟨agrees.locks, agrees.overridden, agrees.changes⟩
    have kept : Holds s (run.note s!"Aligning module {m}") := holds
    exact (noted _ _).sameBut kept apart f same

theorem Agrees.modules (agrees : Agrees run other) (holds : Holds s run)
    (apart : s.options.inlineVersions = false) (f : Nat → List Declaration → List Declaration)
    {entries : List (Module × Nat)}
    (same : ∀ entry ∈ entries, SameBut (s.Behind entry.2)
      (firstDeclarations [] entry.1.declarations)
      (firstDeclarations [] (f entry.2 entry.1.declarations))) :
    Agrees (entries.foldl (Run.alignModule s) run)
      ((entries.map fun entry =>
        ({ entry.1 with declarations := f entry.2 entry.1.declarations }, entry.2)).foldl
          (Run.alignModule (s.redeclare f)) other) := by
  induction entries generalizing run other with
  | nil => exact agrees
  | cons entry rest ih =>
    obtain ⟨first, later⟩ := List.forall_mem_cons.1 same
    have agrees := agrees.alignModule holds apart f entry.1 entry.2 first
    exact ih agrees (holds.alignModule entry) later

end Run

theorem Override.all_redeclare {s : Setting} (unforced : s.policy.dependencyOverrides = [])
    (f : Nat → List Declaration → List Declaration) : all (s.redeclare f) {} = all s {} := by
  have idle (index : Nat) (ds : List Declaration) (run : Run) :
      ds.foldl (declaration s index) run = run := by
    refine List.foldlRecOn (motive := fun later => later = run) _ _ rfl ?_
    rintro _ rfl d -
    refine declaration_idle fun raw wanted asks => ?_
    have forced := asks.wanted
    simp [Policy.dependencyOverride?, unforced] at forced
  exact all_redeclare_of_foldl fun index m _ run => by rw [idle, idle]

/-- Declarations behind properties that are set by hand may be dropped from a project, and the
changes stay the same, if any that they hid and that are left are behind such properties as well. -/
theorem Run.changes_undeclare_behind (s : Setting) (drops : Nat → Nat → Bool)
    (unforced : s.policy.dependencyOverrides = []) (apart : s.options.inlineVersions = false)
    (behind : ∀ index position m d, s.project.module? index = some m →
      m.declarations[position]? = some d → drops index position = true → s.Behind index d)
    (exposed : ∀ index position m e, s.project.module? index = some m →
      m.declarations[position]? = some e → drops index position = false →
      (∃ earlier < position, ∃ d, m.declarations[earlier]? = some d ∧ d.key = e.key) →
      (∀ earlier < position, ∀ d, m.declarations[earlier]? = some d → d.key = e.key →
        drops index earlier = true) → s.Behind index e) :
    (declared { s with project := s.project.undeclare drops }).changes = (declared s).changes := by
  let f (index : Nat) (ds : List Declaration) := dropAt (drops index) ds
  have start : Agrees (Override.all s {}) (Override.all (s.redeclare f) {}) := by
    rw [Override.all_redeclare unforced]
    exact ⟨rfl, rfl, rfl⟩
  have agrees : Agrees (declared s) (declared (s.redeclare f)) := by
    unfold declared
    rw [Setting.redeclare, Project.indexed_redeclare]
    refine start.modules (fun _ _ locked => locked) apart f fun entry member => ?_
    have present := mem_indexed.1 member
    exact entry.1.sameBut_dropAt (fun position d => behind entry.2 position entry.1 d present)
      fun position e => exposed entry.2 position entry.1 e present
  exact agrees.changes

def codecStream : Manifest where
  streams := [⟨"io.netty", "netty-codec", "3.0"⟩]

def nettyForced (p : Project) : Setting :=
  .ofOptions p (codecStream.serve .alone) { overrideProperties := ["netty=2.0"] }

def firstOfAll (index position : Nat) : Bool := index == 0 && position == 0

theorem Run.changes_undeclare_childFirst :
    let s := nettyForced childFirst
    s.policy.dependencyOverrides = [] ∧ s.options.inlineVersions = false ∧
      (∀ index position m d, s.project.module? index = some m →
        m.declarations[position]? = some d → firstOfAll index position = true →
        s.Behind index d) ∧
      (declared { s with project := s.project.undeclare firstOfAll }).changes =
        (declared s).changes := by
  intro s
  have behind : ∀ index position m d, s.project.module? index = some m →
      m.declarations[position]? = some d → firstOfAll index position = true →
      s.Behind index d := by
    intro index position m d present here dropped
    obtain ⟨rfl, rfl⟩ : index = 0 ∧ position = 0 := by simpa [firstOfAll] using dropped
    cases present
    cases here
    exact ⟨"$\x7bnetty\x7d", "netty", ⟨1, "netty"⟩, _, "1.0", "2.0", rfl, by decide, ⟨1, rfl⟩, rfl,
      by decide, rfl, by decide, rfl⟩
  refine ⟨rfl, rfl, behind, changes_undeclare_behind s firstOfAll rfl rfl behind ?_⟩
  -- Neither module has a second declaration.
  have single : ∀ m ∈ s.project.modules, m.declarations.length ≤ 1 := by decide
  rintro index position m e present here left ⟨earlier, before, -⟩ alone
  have short := (List.getElem?_eq_some_iff.1 here).1
  have := single m (List.mem_of_getElem? present)
  omega

def codecTwice : Project where
  modules := [
    { group := "org.acme", artifact := "parent", version := "1", isRoot := true
      properties := [("netty", "1.0")]
      declarations := [
        { coordinate := ⟨"io.netty", "netty-codec", "jar", none⟩
          version := some "$\x7bnetty\x7d" },
        { coordinate := ⟨"io.netty", "netty-codec", "jar", none⟩, version := some "1.0" }] }]
  root := 0

theorem Run.changes_undeclare_hiding :
    let s := nettyForced codecTwice
    s.policy.dependencyOverrides = [] ∧ s.options.inlineVersions = false ∧
      (∀ index position m d, s.project.module? index = some m →
        m.declarations[position]? = some d → firstOfAll index position = true →
        s.Behind index d) ∧
      (declared { s with project := s.project.undeclare firstOfAll }).changes ≠
        (declared s).changes := by
  intro s
  refine ⟨rfl, rfl, ?_, by decide +kernel⟩
  intro index position m d present here dropped
  obtain ⟨rfl, rfl⟩ : index = 0 ∧ position = 0 := by simpa [firstOfAll] using dropped
  cases present
  cases here
  exact ⟨"$\x7bnetty\x7d", "netty", ⟨0, "netty"⟩, _, "1.0", "2.0", rfl, by decide, ⟨0, rfl⟩, rfl,
    by decide, rfl, by decide, rfl⟩

/-- The version leads to a property that is set by hand, but that is an alias of another one. -/
def codecAliased : Project where
  modules := [
    { group := "org.acme", artifact := "parent", version := "1", isRoot := true
      properties := [("netty", "${netty.all}"), ("netty.all", "1.0")]
      declarations := [
        { coordinate := ⟨"io.netty", "netty-codec", "jar", none⟩
          version := some "${netty}" }] }]
  root := 0

-- Setting an alias by hand does not hold back the property that it stood for.
theorem Run.changes_undeclare_alias :
    let s := nettyForced codecAliased
    s.policy.dependencyOverrides = [] ∧ s.options.inlineVersions = false ∧
      (∀ index position m d, s.project.module? index = some m →
        m.declarations[position]? = some d → firstOfAll index position = true →
        ∃ raw name spot owner value wanted, d.version = some raw ∧ reference? raw = some name ∧
          Visits (insideMove s.project) ⟨index, name⟩ spot ∧
          s.project.module? spot.owner = some owner ∧ s.policy.ignoresModule owner = false ∧
          owner.property? spot.name = some value ∧
          s.policy.propertyOverride? spot.name = some wanted) ∧
      (declared s).changes.changes =
        [.setProperty 0 "netty" "2.0", .setProperty 0 "netty.all" "3.0"] ∧
      (declared { s with project := s.project.undeclare firstOfAll }).changes.changes =
        [.setProperty 0 "netty" "2.0"] := by
  intro s
  refine ⟨rfl, rfl, ?_, by decide +kernel, by decide +kernel⟩
  intro index position m d present here dropped
  obtain ⟨rfl, rfl⟩ : index = 0 ∧ position = 0 := by simpa [firstOfAll] using dropped
  cases present
  cases here
  exact ⟨"${netty}", "netty", ⟨0, "netty"⟩, _, "${netty.all}", "2.0", rfl, by decide,
    ⟨0, rfl⟩, rfl, by decide, rfl, rfl⟩

end VersionAlignment
