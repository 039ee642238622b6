import VersionAlignment.Project.Redeclare
import VersionAlignment.Proofs.OverrideSteps

set_option autoImplicit false

namespace VersionAlignment

open Property

def Setting.redeclare (s : Setting) (f : Nat → List Declaration → List Declaration) : Setting :=
  { s with project := s.project.redeclare f }

@[simp] theorem Policy.ignoresModule_redeclared (policy : Policy) (m : Module)
    (ds : List Declaration) :
    policy.ignoresModule { m with declarations := ds } = policy.ignoresModule m := rfl

theorem Project.indexed_redeclare (p : Project)
    (f : Nat → List Declaration → List Declaration) :
    (p.redeclare f).indexed = p.indexed.map fun entry =>
      ({ entry.1 with declarations := f entry.2 entry.1.declarations }, entry.2) := by
  refine List.ext_getElem? fun index => ?_
  simp only [indexed, redeclare, List.getElem?_zipIdx, List.getElem?_map, List.getElem?_mapIdx]
  cases p.modules[index]? <;> simp

section

variable (s : Setting) (f : Nat → List Declaration → List Declaration)

@[simp] theorem Setting.project_redeclare : (s.redeclare f).project = s.project.redeclare f := rfl

@[simp] theorem Setting.policy_redeclare : (s.redeclare f).policy = s.policy := rfl

theorem Setting.resolve_redeclare (owner : Nat) (name : String) :
    (s.redeclare f).resolve owner name = s.resolve owner name := by
  simp [resolve, redeclare, Property.resolve, insideMove_redeclare]

theorem Written.read_redeclare (index : Nat) (raw : String) :
    read (s.redeclare f) index raw = read s index raw := by
  simp only [read, s.resolve_redeclare f]

theorem judge_redeclare {run other : Run} (locks : other.locks = run.locks)
    (overridden : other.overridden = run.overridden) (index : Nat) (d : Declaration)
    (raw : String) : judge (s.redeclare f) other index d raw = judge s run index d raw := by
  have owns : (s.redeclare f).project.owns d.coordinate = s.project.owns d.coordinate :=
    s.project.owns_redeclare f d.coordinate
  simp only [judge, owns, overridden, locks, Written.read_redeclare]
  rfl

end

/-- Two lists have the same members in the same order, but for some that have the property. -/
inductive SameBut {α : Type} (p : α → Prop) : List α → List α → Prop
  | nil : SameBut p [] []
  | keep {a : α} {as bs : List α} : SameBut p as bs → SameBut p (a :: as) (a :: bs)
  | drop {a : α} {as bs : List α} : p a → SameBut p as bs → SameBut p (a :: as) bs
  | add {b : α} {as bs : List α} : p b → SameBut p as bs → SameBut p as (b :: bs)

theorem SameBut.foldl_rel {α β γ : Type} {p : α → Prop} {R : β → γ → Prop} {f : β → α → β}
    {g : γ → α → γ} {as bs : List α} (same : SameBut p as bs)
    (keep : ∀ b c a, R b c → R (f b a) (g c a)) (drop : ∀ b c a, p a → R b c → R (f b a) c)
    (add : ∀ b c a, p a → R b c → R b (g c a)) {b : β} {c : γ} (start : R b c) :
    R (as.foldl f b) (bs.foldl g c) := by
  induction same generalizing b c with
  | nil => exact start
  | @keep a _ _ _ ih => exact ih (keep b c a start)
  | @drop a _ _ lost _ ih => exact ih (drop b c a lost start)
  | @add a _ _ new _ ih => exact ih (add b c a new start)

theorem SameBut.foldl_eq {α β : Type} {p : α → Prop} {f : β → α → β} {as bs : List α}
    (same : SameBut p as bs) (idle : ∀ b a, p a → f b a = b) (b : β) :
    bs.foldl f b = as.foldl f b := by
  refine same.foldl_rel (R := fun b c => c = b) ?_ ?_ ?_ rfl
  · rintro b _ a rfl
    rfl
  · rintro b _ a lost rfl
    exact (idle _ a lost).symm
  · rintro b _ a new rfl
    exact idle _ a new

theorem sameBut_dropAt {α : Type} {drops : Nat → Bool} {p : α → Prop} {as : List α}
    (dropped : ∀ position a, as[position]? = some a → drops position = true → p a) :
    SameBut p as (dropAt drops as) := by
  suffices indexed : ∀ entries : List (α × Nat),
      (∀ entry ∈ entries, drops entry.2 = true → p entry.1) →
      SameBut p (entries.map (·.1)) ((entries.filter fun entry => !drops entry.2).map (·.1)) by
    have same := indexed as.zipIdx fun entry member =>
      dropped entry.2 entry.1 (List.mem_zipIdx_iff_getElem?.1 member)
    simpa [dropAt] using same
  intro entries dropped
  induction entries with
  | nil => exact .nil
  | cons entry rest ih =>
    obtain ⟨own, dropped⟩ := List.forall_mem_cons.1 dropped
    rw [List.map_cons]
    cases lost : drops entry.2 with
    | true =>
      rw [List.filter_cons_of_neg (by simp [lost])]
      exact .drop (own lost) (ih dropped)
    | false =>
      rw [List.filter_cons_of_pos (by simp [lost]), List.map_cons]
      exact .keep (ih dropped)

theorem mem_dropAt {α : Type} {drops : Nat → Bool} {as : List α} {a : α} :
    a ∈ dropAt drops as ↔ ∃ position, as[position]? = some a ∧ drops position = false := by
  simp [dropAt, List.mem_zipIdx_iff_getElem?]

section

variable {seen : List (Coordinate × Place)}

theorem firstDeclarations_cons_of_mem {d : Declaration} (old : d.key ∈ seen)
    (rest : List Declaration) :
    firstDeclarations seen (d :: rest) = firstDeclarations seen rest := by
  simp [firstDeclarations, old]

theorem firstDeclarations_cons_of_not_mem {d : Declaration} (new : d.key ∉ seen)
    (rest : List Declaration) :
    firstDeclarations seen (d :: rest) = d :: firstDeclarations (d.key :: seen) rest := by
  simp [firstDeclarations, new]

/-- The declarations that are left are the first ones of the same keys, but for those that were
dropped and those that are first only because of it. -/
theorem sameBut_firstDeclarations {drops : Nat → Bool} {p : Declaration → Prop}
    {seen' : List (Coordinate × Place)} {entries : List (Declaration × Nat)}
    (fewer : ∀ key ∈ seen', key ∈ seen)
    (dropped : ∀ entry ∈ entries, drops entry.2 = true → p entry.1)
    (exposed : ∀ before entry after, entries = before ++ entry :: after →
      drops entry.2 = false → entry.1.key ∉ seen' →
      (∀ other ∈ before, other.1.key = entry.1.key → drops other.2 = true) →
      (entry.1.key ∈ seen ∨ ∃ other ∈ before, other.1.key = entry.1.key) → p entry.1) :
    SameBut p (firstDeclarations seen (entries.map (·.1)))
      (firstDeclarations seen' ((entries.filter fun entry => !drops entry.2).map (·.1))) := by
  induction entries generalizing seen seen' with
  | nil => exact .nil
  | cons entry rest ih =>
    obtain ⟨own, dropped⟩ := List.forall_mem_cons.1 dropped
    -- What has been seen after this entry, before and after some are dropped.
    have later : ∀ known known', (∀ key ∈ known', key ∈ known) → (∀ key ∈ seen', key ∈ known') →
        (∀ key ∈ known, key ∈ seen ∨ key = entry.1.key) →
        (drops entry.2 = true ∨ entry.1.key ∈ known') →
        SameBut p (firstDeclarations known (rest.map (·.1)))
          (firstDeclarations known' ((rest.filter fun e => !drops e.2).map (·.1))) := by
      intro known known' fewer more most passed
      refine ih fewer dropped fun before other after split stays new alone old => ?_
      refine exposed (entry :: before) other after (by rw [split]; rfl) stays
        (fun member => new (more _ member)) (List.forall_mem_cons.2 ⟨fun same => ?_, alone⟩) ?_
      · exact passed.resolve_right fun member => new (same ▸ member)
      · rcases old with old | ⟨earlier, member, same⟩
        · exact (most _ old).imp_right fun same => ⟨entry, List.mem_cons_self, same.symm⟩
        · exact .inr ⟨earlier, List.mem_cons_of_mem _ member, same⟩
    have grown : ∀ {known : List (Coordinate × Place)}, ∀ key ∈ known, key ∈ entry.1.key :: known :=
      fun key member => List.mem_cons_of_mem _ member
    have one : ∀ key ∈ entry.1.key :: seen, key ∈ seen ∨ key = entry.1.key :=
      fun key member => (List.mem_cons.1 member).symm
    rw [List.map_cons]
    cases lost : drops entry.2 with
    | true =>
      rw [List.filter_cons_of_neg (by simp [lost])]
      by_cases old : entry.1.key ∈ seen
      · rw [firstDeclarations_cons_of_mem old]
        exact later seen seen' fewer (fun _ => id) (fun _ => .inl) (.inl lost)
      · rw [firstDeclarations_cons_of_not_mem old]
        exact .drop (own lost) (later _ seen' (fun key member => grown key (fewer key member))
          (fun _ => id) one (.inl lost))
    | false =>
      rw [List.filter_cons_of_pos (by simp [lost]), List.map_cons]
      by_cases old' : entry.1.key ∈ seen'
      · rw [firstDeclarations_cons_of_mem old', firstDeclarations_cons_of_mem (fewer _ old')]
        exact later seen seen' fewer (fun _ => id) (fun _ => .inl) (.inr old')
      · rw [firstDeclarations_cons_of_not_mem old']
        by_cases old : entry.1.key ∈ seen
        · rw [firstDeclarations_cons_of_mem old]
          refine .add (exposed [] entry rest rfl lost old' (by simp) (.inl old)) ?_
          exact later seen _ (List.forall_mem_cons.2 ⟨old, fewer⟩) grown (fun _ => .inl)
            (.inr List.mem_cons_self)
        · rw [firstDeclarations_cons_of_not_mem old]
          refine .keep (later _ _ (List.forall_mem_cons.2 ⟨List.mem_cons_self, ?_⟩) grown one
            (.inr List.mem_cons_self))
          exact fun key member => grown key (fewer key member)

end

theorem Module.sameBut_dropAt (m : Module) {drops : Nat → Bool} {p : Declaration → Prop}
    (dropped : ∀ position d, m.declarations[position]? = some d → drops position = true → p d)
    (exposed : ∀ position e, m.declarations[position]? = some e → drops position = false →
      (∃ earlier < position, ∃ d, m.declarations[earlier]? = some d ∧ d.key = e.key) →
      (∀ earlier < position, ∀ d, m.declarations[earlier]? = some d → d.key = e.key →
        drops earlier = true) → p e) :
    SameBut p (firstDeclarations [] m.declarations)
      (firstDeclarations [] (dropAt drops m.declarations)) := by
  let entries := m.declarations.zipIdx
  have indexed : ∀ position : Nat, entries[position]? =
      m.declarations[position]?.map fun d => (d, position) := by
    simp [entries, List.getElem?_zipIdx]
  have same : SameBut p (firstDeclarations [] (entries.map (·.1)))
      (firstDeclarations [] ((entries.filter fun entry => !drops entry.2).map (·.1))) := by
    refine sameBut_firstDeclarations (by simp) ?_ ?_
    · intro entry member
      exact dropped entry.2 entry.1 (List.mem_zipIdx_iff_getElem?.1 member)
    · intro before entry after split stays _ alone old
      have front : ∀ earlier : Nat, earlier < before.length → before[earlier]? =
          m.declarations[earlier]?.map fun d => (d, earlier) := fun earlier short => by
        rw [← indexed, split, List.getElem?_append_left short]
      have here : m.declarations[before.length]?.map (fun d => (d, before.length)) =
          some entry := by
        rw [← indexed, split]
        simp
      obtain ⟨e, present, rfl⟩ := Option.map_eq_some_iff.1 here
      obtain ⟨other, member, same⟩ := old.resolve_left (by simp)
      obtain ⟨earlier, there⟩ := List.getElem?_of_mem member
      have short : earlier < before.length := (List.getElem?_eq_some_iff.1 there).1
      obtain ⟨d, declares, rfl⟩ := Option.map_eq_some_iff.1 ((front earlier short).symm.trans there)
      refine exposed before.length e present stays ⟨earlier, short, d, declares, same⟩ ?_
      intro earlier short d declares alike
      refine alone (d, earlier) (List.mem_of_getElem? (i := earlier) ?_) alike
      rw [front earlier short, declares]
      rfl
  simpa [entries, dropAt] using same

end VersionAlignment
