import VersionAlignment.Proofs.ManifestChannel

set_option autoImplicit false

namespace VersionAlignment

open Property

namespace Run.Sound

variable {s : Setting} {run : Run}

theorem declaration_changed (sound : Sound s run)
    (steady : ∀ c a b, s.given.channel c a = s.given.channel c b) {index position : Nat}
    {m : Module} {d : Declaration} {raw current target : String}
    (inside : s.project.module? index = some m) (here : m.declarations[position]? = some d)
    (version : d.version = some raw)
    (covered : s.given.channel d.coordinate current = some target) :
    ∃ n e, (s.project.applyAll run.changes.changes).module? index = some n ∧
      n.declarations[position]? = some e ∧ e.key = d.key ∧
      e.version = some (if .overrideVersion index d.coordinate raw target ∈ run.changes.changes
        then target else raw) := by
  refine ⟨m.revised index run.changes.changes, d.revised index run.changes.changes, ?_, ?_, ?_, ?_⟩
  · rw [Project.module?_revised, inside]
    rfl
  · rw [Module.declarations_revised m index sound.manages_nothing, List.getElem?_map, here]
    rfl
  · have kept := d.kept_revised index run.changes.changes
    simp [Declaration.key, kept.1, kept.2.1]
  · exact Declaration.version_revised version fun old new present =>
      sound.eq_target_of_override steady covered present

end Run.Sound

theorem Declaration.IsFirst.of_getElem? {ds : List Declaration} {position : Nat} {d : Declaration}
    (here : ds[position]? = some d)
    (first : ∀ earlier < position, ∀ e, ds[earlier]? = some e → e.key ≠ d.key) : d.IsFirst ds := by
  obtain ⟨below, rfl⟩ := List.getElem?_eq_some_iff.1 here
  refine ⟨ds.take position, ds.drop (position + 1), by simp, ?_⟩
  intro member
  obtain ⟨e, taken, same⟩ := List.mem_map.1 member
  obtain ⟨earlier, short, rfl⟩ := List.getElem_of_mem taken
  rw [List.length_take] at short
  exact first earlier (by omega) _ (by simp) same

namespace Run

theorem accounted {s : Setting} (regular : s.Regular) {index position : Nat}
    {m : Module} {d : Declaration} {raw target : String}
    (inside : s.project.module? index = some m) (included : s.policy.ignoresModule m = false)
    (here : m.declarations[position]? = some d) (first : d.IsFirst m.declarations)
    (version : d.version = some raw) (foreign : s.project.owns d.coordinate = false)
    (heeded : s.policy.ignores? d.coordinate d.effectiveScope = none)
    (followed : ∀ name, reference? raw = some name → s.policy.ignoresProperty name = false ∧
      ∀ r, s.resolve index name = .ok (some r) → s.policy.ignoresProperty r.site.name = false)
    (covered : s.given.channel d.coordinate raw = some target) :
    (∃ n e text current,
      (s.project.applyAll (declared s).changes.changes).module? index = some n ∧
      n.declarations[position]? = some e ∧ e.key = d.key ∧ e.version = some text ∧
      (Written.read { s with project := s.project.applyAll (declared s).changes.changes } index
        text).current? = some current ∧ Version.compare current target = .eq) ∨
    (declared s).Reports index d.coordinate ∨ (declared s).Warns index d.coordinate := by
  have sound : Sound s (declared s) := sound_declared regular.unforced
  obtain ⟨n, e, inside', here', key, text⟩ :=
    sound.declaration_changed regular.steady inside here version covered
  by_cases replaced : .overrideVersion index d.coordinate raw target ∈ (declared s).changes.changes
  · left
    rw [if_pos replaced] at text
    refine ⟨n, e, target, target, inside', here', key, text, ?_, Version.compare_self target⟩
    simp [Written.read, regular.literal _ _ _ covered, Written.current?]
  · rw [if_neg replaced] at text
    obtain ⟨before, settled⟩ := declared_settled regular.maven regular.unforced inside included
      first version foreign heeded ((regular.steady d.coordinate _ raw).trans covered)
    cases settled with
    | replaced present => exact absurd present replaced
    | @fixed current fixes _ told =>
      rcases told with same | reports
      · left
        refine ⟨n, e, raw, current, inside', here', key, text, ?_, ?_⟩
        · rw [sound.read_rebound regular.literal (Project.rebound_applyAll _ _)]
          exact sound.current?_rebound fixes
        · simpa [Setting.isSame, regular.maven] using same
      · exact .inr (.inl reports)
    | @ignored name r read _ ignored =>
      obtain ⟨named, resolved⟩ := Written.reference_of_read read
      have kept := followed name named
      simp [kept.1, kept.2 r resolved] at ignored
    | @unresolved name found read _ told =>
      rcases told with ignored | warns
      · have named := (Written.reference_of_read read).1
        simp [(followed name named).1] at ignored
      · exact .inr (.inr warns)
    | withheld _ _ _ _ _ _ _ warns => exact .inr (.inr warns)

end Run

/-- No declaration is silently left off the version of its stream: after the changes of a run it
resolves to that version, or the run has an entry or a warning for it. -/
theorem Manifest.declaration_accounted_for (man : Manifest) (p : Project) (given : Surroundings)
    (o : Options) (index position : Nat) {m : Module} {d : Declaration} {raw target : String}
    (literal : man.IsLiteral) (unforced : (Policy.ofOptions o).Unforced)
    (inside : p.module? index = some m) (included : (Policy.ofOptions o).ignoresModule m = false)
    (here : m.declarations[position]? = some d)
    (first : ∀ earlier < position, ∀ e, m.declarations[earlier]? = some e → e.key ≠ d.key)
    (version : d.version = some raw) (foreign : p.owns d.coordinate = false)
    (heeded : (Policy.ofOptions o).ignores? d.coordinate d.effectiveScope = none)
    (followed : ∀ name, reference? raw = some name →
      (Policy.ofOptions o).ignoresProperty name = false ∧
        ∀ r, Property.resolve p given.outside index name = .ok (some r) →
          (Policy.ofOptions o).ignoresProperty r.site.name = false)
    (covered : (ChannelIndex.ofManifest man).version? d.coordinate = some target) :
    let run := Run.declared (man.setting p given o)
    let changed := p.applyAll run.changes.changes
    (∃ n e text current, changed.module? index = some n ∧ n.declarations[position]? = some e ∧
      e.key = d.key ∧ e.version = some text ∧
      (Written.read (man.setting changed given o) index text).current? = some current ∧
      Version.compare current target = .eq) ∨
    run.Reports index d.coordinate ∨ run.Warns index d.coordinate :=
  Run.accounted (s := man.setting p given o) (Manifest.regular_setting literal unforced p given)
    inside included here (.of_getElem? here first) version foreign heeded followed covered

theorem Manifest.second_reader_accounted_for :
    let run := Run.declared (twoVersions.setting twoReaders .alone {})
    let changed := twoReaders.applyAll run.changes.changes
    (∃ n e text current, changed.module? 1 = some n ∧ n.declarations[0]? = some e ∧
      e.key = (⟨"io.netty", "netty-codec", "jar", none⟩, .dependencies) ∧ e.version = some text ∧
      (Written.read (twoVersions.setting changed .alone {}) 1 text).current? = some current ∧
      Version.compare current "2.1" = .eq) ∨
    run.Reports 1 ⟨"io.netty", "netty-codec", "jar", none⟩ ∨
    run.Warns 1 ⟨"io.netty", "netty-codec", "jar", none⟩ :=
  declaration_accounted_for twoVersions twoReaders .alone {} 1 0 (by unfold IsLiteral; decide)
    ⟨rfl, rfl⟩ rfl (by decide) rfl (by simp) rfl (by decide) (by decide)
    (fun _ _ => ⟨rfl, fun _ _ => rfl⟩) (by decide)

end VersionAlignment
