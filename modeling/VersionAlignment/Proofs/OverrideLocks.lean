import VersionAlignment.Proofs.OverrideSteps

set_option autoImplicit false

namespace VersionAlignment

open Property

namespace Override

def leading (seen : List Coordinate) : List Declaration → List Declaration
  | [] => []
  | d :: rest =>
    if d.version.isNone ∨ d.coordinate ∈ seen then leading seen rest
    else d :: leading (d.coordinate :: seen) rest

def through? (s : Setting) (site : Site) (index : Nat) (d : Declaration) : Option String :=
  match s.policy.dependencyOverride? d.coordinate, d.version.bind reference? with
  | some wanted, some name =>
    if s.project.owns d.coordinate ∨ s.options.inlineVersions then none
    else match s.resolve index name with
      | .ok (some r) => if r.site = site then some wanted else none
      | _ => none
  | _, _ => none

def dependencyClaim? (s : Setting) (site : Site) (entry : Module × Nat) : Option String :=
  if s.policy.ignoresModule entry.1 then none
  else (leading [] entry.1.declarations).findSome? (through? s site entry.2)

def propertyClaim? (s : Setting) (site : Site) (entry : Module × Nat) : Option String :=
  if s.policy.ignoresModule entry.1 ∨ entry.2 ≠ site.owner then none
  else (entry.1.property? site.name).bind fun _ => s.policy.propertyOverride? site.name

/-- Of a module's overrides those of its properties go first. -/
def claim? (s : Setting) (site : Site) (entry : Module × Nat) : Option String :=
  (propertyClaim? s site entry).or (dependencyClaim? s site entry)

def final (value : String) : Lock := ⟨value, .override⟩

variable {s : Setting} {run : Run} {index : Nat} {site : Site}

theorem through?_of_refers {d : Declaration} {raw wanted : String} {r : Resolution}
    (asks : Asks s d raw wanted) (refers : Refers s index raw r) :
    through? s site index d = if r.site = site then some wanted else none := by
  obtain ⟨name, named, resolved⟩ := refers.named
  simp [through?, asks.wanted, asks.version, asks.foreign, refers.apart, named, resolved]

theorem asks_of_through? {d : Declaration} {value : String}
    (goes : through? s site index d = some value) :
    ∃ raw r, Asks s d raw value ∧ Refers s index raw r ∧ r.site = site := by
  unfold through? at goes
  split at goes
  · next wanted name forced text =>
    split at goes
    · cases goes
    · next open_ =>
      simp only [not_or, Bool.not_eq_true] at open_
      obtain ⟨raw, version, named⟩ := Option.bind_eq_some_iff.1 text
      split at goes
      · next r resolved =>
        simp only [Option.ite_none_right_eq_some, Option.some.injEq] at goes
        obtain ⟨here, rfl⟩ := goes
        exact ⟨raw, r, ⟨version, forced, open_.1⟩, ⟨open_.2, name, named, resolved⟩, here⟩
      · cases goes
  · cases goes

theorem Barred.or_through? {d : Declaration} {raw wanted : String} {locks : Locks}
    (barred : Barred s index raw locks) (asks : Asks s d raw wanted)
    (inside : site.outside = false) :
    (locks.get? site).or ((through? s site index d).map final) = locks.get? site := by
  cases goes : through? s site index d with
  | none => simp
  | some value =>
    obtain ⟨text, r, asks', refers, rfl⟩ := asks_of_through? goes
    have same : raw = text := Option.some.inj (asks.version.symm.trans asks'.version)
    rcases barred r (same ▸ refers) with outside | locked
    · simp [inside] at outside
    · obtain ⟨lock, found⟩ := Option.isSome_iff_exists.1 locked
      simp [found]

theorem version_get? {d : Declaration} {raw wanted : String} {later : Run}
    (inside : site.outside = false) (asks : Asks s d raw wanted)
    (moved : Moved s index d.coordinate raw wanted run later) :
    later.locks.get? site =
      (run.locks.get? site).or ((through? s site index d).map final) := by
  cases moved with
  | literal _ barred locks | replaced barred locks =>
    rw [locks, barred.or_through? asks inside]
  | standing refers _ stuck =>
    rcases stuck with outside | ⟨lock, found, -⟩
    · rw [(barred_of_outside refers outside _).or_through? asks inside]
    · rw [(barred_of_locked refers found).or_through? asks inside]
  | agreed refers _ found => rw [(barred_of_locked refers found).or_through? asks inside]
  | @locked r _ refers _ free locks =>
    rw [locks, Locks.get?_lock, through?_of_refers asks refers]
    by_cases here : site = r.site
    · simp [here, free, final]
    · simp [here, Ne.symm here]

theorem declaration_get? {d : Declaration} (inside : site.outside = false)
    (fresh : d.version.isSome → (index, d.coordinate) ∉ run.overridden) :
    (declaration s index run d).locks.get? site =
      (run.locks.get? site).or ((through? s site index d).map final) := by
  by_cases asked : ∃ raw wanted, Asks s d raw wanted
  · obtain ⟨raw, wanted, asks⟩ := asked
    rw [declaration_of_asks asks (fresh (by simp [asks.version]))]
    have moved := version_get? inside asks
      (version_moved s index d.coordinate raw wanted (run.settle index d.coordinate))
    exact moved
  · have nothing : through? s site index d = none :=
      Option.eq_none_iff_forall_ne_some.2 fun value goes => by
        obtain ⟨raw, r, asks, -⟩ := asks_of_through? goes
        exact asked ⟨raw, value, asks⟩
    rw [declaration_idle fun raw wanted asks => absurd ⟨raw, wanted, asks⟩ asked]
    simp [nothing]

theorem mem_overridden_declaration {d : Declaration} {entry : Nat × Coordinate} :
    entry ∈ (declaration s index run d).overridden ↔ entry ∈ run.overridden ∨
      entry = (index, d.coordinate) ∧ ∃ raw wanted, Asks s d raw wanted := by
  by_cases asked : ∃ raw wanted, Asks s d raw wanted
  · by_cases settled : (index, d.coordinate) ∈ run.overridden
    · rw [declaration_idle fun _ _ _ => settled]
      exact ⟨.inl, fun either => either.elim id fun own => own.1 ▸ settled⟩
    · obtain ⟨raw, wanted, asks⟩ := asked
      rw [declaration_of_asks asks settled, version_overridden]
      simp only [Run.settle, List.mem_cons]
      exact ⟨fun either => either.symm.imp_right fun own => ⟨own, raw, wanted, asks⟩,
        fun either => (either.imp_right And.left).symm⟩
  · rw [declaration_idle fun raw wanted asks => absurd ⟨raw, wanted, asks⟩ asked]
    exact ⟨.inl, fun either => either.elim id fun own => absurd own.2 asked⟩

theorem declarations_get? (inside : site.outside = false) {seen : List Coordinate}
    (fresh : ∀ c, c ∉ seen → (index, c) ∉ run.overridden)
    (old : ∀ d raw wanted, Asks s d raw wanted → d.coordinate ∈ seen →
      (index, d.coordinate) ∈ run.overridden) (ds : List Declaration) :
    (ds.foldl (declaration s index) run).locks.get? site = (run.locks.get? site).or
      (((leading seen ds).findSome? (through? s site index)).map final) := by
  induction ds generalizing run seen with
  | nil => simp [leading]
  | cons d rest ih =>
    rw [List.foldl_cons, leading]
    split
    · next passed =>
      have idle : declaration s index run d = run := declaration_idle fun raw wanted asks => by
        rcases passed with bare | again
        · simp [asks.version] at bare
        · exact old d raw wanted asks again
      rw [idle, ih fresh old]
    · next leads =>
      simp only [not_or, Option.isNone_iff_eq_none] at leads
      obtain ⟨raw, version⟩ := Option.ne_none_iff_exists'.1 leads.1
      have fresh' : ∀ c, c ∉ d.coordinate :: seen →
          (index, c) ∉ (declaration s index run d).overridden := by
        intro c unseen settled
        rw [List.mem_cons, not_or] at unseen
        rcases mem_overridden_declaration.1 settled with before | ⟨own, -⟩
        · exact fresh c unseen.2 before
        · exact unseen.1 (congrArg Prod.snd own)
      have old' : ∀ e text wanted, Asks s e text wanted → e.coordinate ∈ d.coordinate :: seen →
          (index, e.coordinate) ∈ (declaration s index run d).overridden := by
        intro e text wanted asks known
        refine mem_overridden_declaration.2 ?_
        rcases List.mem_cons.1 known with same | known
        · exact .inr ⟨by rw [same], raw, wanted, version, same ▸ asks.wanted, same ▸ asks.foreign⟩
        · exact .inl (old e text wanted asks known)
      rw [ih fresh' old', declaration_get? inside fun _ => fresh _ leads.2, Option.or_assoc,
        List.findSome?_cons]
      cases through? s site index d <;> simp

theorem property_get? (m : Module) (entry : String × String) :
    (property s m index run entry).locks.get? site = (run.locks.get? site).or
      (if site = ⟨index, entry.1, false⟩ then (s.policy.propertyOverride? entry.1).map final
        else none) := by
  obtain ⟨name, current⟩ := entry
  have bound := property_bound s m index run name current
  generalize property s m index run (name, current) = later at bound
  by_cases here : site = ⟨index, name, false⟩
  · subst here
    cases bound with
    | idle free =>
      rcases free with unforced | locked
      · simp [unforced]
      · obtain ⟨lock, found⟩ := Option.isSome_iff_exists.1 locked
        simp [found]
    | lock forced free locks => simp [locks, Locks.get?_lock, free, forced, final]
  · cases bound with
    | idle => simp [here]
    | lock _ _ locks => simp [locks, Locks.get?_lock, here]

theorem properties_get? (inside : site.outside = false) (m : Module)
    (entries : List (String × String)) :
    (entries.foldl (property s m index) run).locks.get? site = (run.locks.get? site).or
      (if index = site.owner then ((entries.lookup site.name).bind fun _ =>
        s.policy.propertyOverride? site.name).map final else none) := by
  induction entries generalizing run with
  | nil => simp
  | cons entry rest ih =>
    obtain ⟨owner, name, outside⟩ := site
    obtain ⟨key, current⟩ := entry
    cases inside
    rw [List.foldl_cons, ih, property_get?, Option.or_assoc, Sorted.lookup_cons]
    by_cases own : index = owner
    · by_cases same : name = key
      · cases forced : s.policy.propertyOverride? key <;> simp [own, same, forced]
      · simp [own, same]
    · simp [own, Ne.symm own]

theorem properties_overridden (m : Module) (entries : List (String × String)) :
    (entries.foldl (property s m index) run).overridden = run.overridden := by
  induction entries generalizing run with
  | nil => rfl
  | cons entry rest ih => rw [List.foldl_cons, ih, property_overridden]

theorem moduleEntries_get? (inside : site.outside = false) {entry : Module × Nat}
    (fresh : ∀ c, (entry.2, c) ∉ run.overridden) :
    (moduleEntries s run entry).locks.get? site =
      (run.locks.get? site).or ((claim? s site entry).map final) := by
  obtain ⟨m, index⟩ := entry
  by_cases ignored : s.policy.ignoresModule m = true
  · simp [moduleEntries, claim?, propertyClaim?, dependencyClaim?, ignored]
  · have settled : ∀ c, (index, c) ∉ (m.properties.foldl (property s m index) run).overridden := by
      simpa only [properties_overridden] using fresh
    simp only [moduleEntries, ignored, Bool.false_eq_true, if_false]
    rw [declarations_get? inside (fun c (_ : c ∉ []) => settled c) (by simp),
      properties_get? inside, Option.or_assoc]
    by_cases own : index = site.owner <;>
      simp [claim?, propertyClaim?, dependencyClaim?, ignored, own, Module.property?,
        Option.map_or]

theorem mem_overridden_declarations {ds : List Declaration} {settled : Nat × Coordinate}
    (member : settled ∈ (ds.foldl (declaration s index) run).overridden) :
    settled ∈ run.overridden ∨ settled.1 = index := by
  induction ds generalizing run with
  | nil => exact .inl member
  | cons d rest ih =>
    rcases ih member with inner | own
    · exact (mem_overridden_declaration.1 inner).imp_right fun own => by rw [own.1]
    · exact .inr own

theorem mem_overridden_moduleEntries {entry : Module × Nat} {settled : Nat × Coordinate}
    (member : settled ∈ (moduleEntries s run entry).overridden) :
    settled ∈ run.overridden ∨ settled.1 = entry.2 := by
  obtain ⟨m, index⟩ := entry
  by_cases ignored : s.policy.ignoresModule m = true
  · exact .inl (by simpa [moduleEntries, ignored] using member)
  · simp only [moduleEntries, ignored, Bool.false_eq_true, if_false] at member
    simpa only [properties_overridden] using mem_overridden_declarations member

theorem foldl_moduleEntries_get? (inside : site.outside = false) {entries : List (Module × Nat)}
    (apart : entries.Pairwise fun a b => a.2 ≠ b.2)
    (fresh : ∀ entry ∈ entries, ∀ c, (entry.2, c) ∉ run.overridden) :
    (entries.foldl (moduleEntries s) run).locks.get? site =
      (run.locks.get? site).or ((entries.findSome? (claim? s site)).map final) := by
  induction entries generalizing run with
  | nil => simp
  | cons entry rest ih =>
    obtain ⟨others, apart⟩ := List.pairwise_cons.1 apart
    obtain ⟨own, later⟩ := List.forall_mem_cons.1 fresh
    rw [List.foldl_cons, ih apart, moduleEntries_get? inside own, Option.or_assoc,
      List.findSome?_cons]
    · cases claim? s site entry <;> simp
    · intro other member c settled
      rcases mem_overridden_moduleEntries settled with before | same
      · exact later other member c before
      · exact others other member same.symm

theorem get?_all (inside : site.outside = false) :
    (all s {}).locks.get? site = (s.project.indexed.findSome? (claim? s site)).map final := by
  rw [all, foldl_moduleEntries_get? inside (Run.indexed_apart s.project) (by simp)]
  simp [Locks.get?]

end Override

end VersionAlignment
