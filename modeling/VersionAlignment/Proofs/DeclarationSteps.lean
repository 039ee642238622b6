import Mathlib.Data.List.Nodup
import VersionAlignment.Proofs.Replacements

set_option autoImplicit false

namespace VersionAlignment

theorem nodup_keys_firstDeclarations (seen : List (Coordinate × Place)) (ds : List Declaration) :
    ((firstDeclarations seen ds).map Declaration.key).Nodup := by
  induction ds generalizing seen with
  | nil => simp [firstDeclarations]
  | cons d rest ih =>
    rw [firstDeclarations]
    split
    · exact ih seen
    · rw [List.map_cons, List.nodup_cons]
      refine ⟨fun again => ?_, ih _⟩
      obtain ⟨e, member, same⟩ := List.mem_map.1 again
      exact (mem_firstDeclarations.1 member).1 (same ▸ List.mem_cons_self)

theorem Declaration.IsFirst.unique {d e : Declaration} {ds : List Declaration}
    (first : d.IsFirst ds) (other : e.IsFirst ds) (same : e.key = d.key) : e = d := by
  induction ds with
  | nil => simp [IsFirst] at first
  | cons f ds ih =>
    rcases isFirst_cons.1 first with rfl | ⟨new, first⟩
    · exact (isFirst_cons.1 other).resolve_right fun later => later.1 same
    · rcases isFirst_cons.1 other with rfl | ⟨-, other⟩
      · exact absurd same.symm new
      · exact ih first other

namespace Run

def Step.decides? : Step → Option (Nat × Coordinate × Place)
  | .declaration index d => some (index, d.key)
  | _ => none

variable {s : Setting} {index : Nat} {d : Declaration}

theorem decides?_overrideSteps (s : Setting) (entry : Module × Nat) :
    (overrideSteps s entry).filterMap Step.decides? = [] := by
  rw [List.filterMap_eq_nil_iff]
  intro step member
  cases step with
  | declaration => exact absurd member declaration_not_mem_overrideSteps
  | property | dependency | note => rfl

theorem decides?_alignmentSteps (s : Setting) (entry : Module × Nat) :
    (alignmentSteps s entry).filterMap Step.decides? =
      if s.policy.ignoresModule entry.1 then []
      else ((firstDeclarations [] entry.1.declarations).map Declaration.key).map
        (Prod.mk entry.2) := by
  obtain ⟨m, index⟩ := entry
  unfold alignmentSteps
  dsimp only
  split
  · rfl
  · rw [List.filterMap_cons_none rfl, List.filterMap_map, List.map_map]
    exact congrFun List.filterMap_eq_map _

theorem owner_of_decides? {entry : Module × Nat} {decided : Nat × Coordinate × Place}
    (member : decided ∈ (alignmentSteps s entry).filterMap Step.decides?) :
    decided.1 = entry.2 := by
  rw [decides?_alignmentSteps] at member
  split at member
  · simp at member
  · obtain ⟨key, -, rfl⟩ := List.mem_map.1 member
    rfl

theorem nodup_decides? (s : Setting) : ((steps s).filterMap Step.decides?).Nodup := by
  have overrides : (s.project.indexed.flatMap fun entry =>
      (overrideSteps s entry).filterMap Step.decides?) = [] := by
    simp [decides?_overrideSteps]
  rw [steps, List.filterMap_append, List.filterMap_flatMap, List.filterMap_flatMap, overrides,
    List.nil_append, List.nodup_flatMap]
  constructor
  · intro entry _
    rw [decides?_alignmentSteps]
    split
    · exact List.nodup_nil
    · exact (nodup_keys_firstDeclarations [] entry.1.declarations).map
        fun _ _ same => congrArg Prod.snd same
  · refine (indexed_apart s.project).imp fun {a b} other =>
      List.disjoint_left.2 fun decided first second => ?_
    exact other ((owner_of_decides? first).symm.trans (owner_of_decides? second))

theorem front_eq_of_decides? {step : Step} {decided : Nat × Coordinate × Place}
    {front back front' back' : List Step} (decides : step.decides? = some decided)
    (once : ((front ++ step :: back).filterMap Step.decides?).Nodup)
    (same : front ++ step :: back = front' ++ step :: back') : front' = front := by
  rcases List.append_eq_append_iff.1 same with ⟨mid, rfl, rest⟩ | ⟨mid, rfl, rest⟩
  · cases mid with
    | nil => simp
    | cons first mid =>
      obtain ⟨rfl, rfl⟩ := List.cons_eq_cons.1 rest
      simp [decides, List.nodup_append] at once
  · cases mid with
    | nil => simp
    | cons first mid =>
      obtain ⟨rfl, rfl⟩ := List.cons_eq_cons.1 rest
      simp [decides, List.nodup_append] at once

theorem front_unique {front back front' back' : List Step}
    (split : steps s = front ++ .declaration index d :: back)
    (split' : steps s = front' ++ .declaration index d :: back') : front' = front :=
  front_eq_of_decides? rfl (split ▸ nodup_decides? s) (split.symm.trans split')

theorem exists_alignment_front {front back : List Step}
    (split : steps s = front ++ .declaration index d :: back) :
    ∃ mid, front = s.project.indexed.flatMap (overrideSteps s) ++ mid := by
  rw [steps, List.append_eq_append_iff] at split
  rcases split with ⟨mid, rfl, -⟩ | ⟨late, overrides, own⟩
  · exact ⟨mid, rfl⟩
  · cases late with
    | nil => exact ⟨[], by simpa using overrides.symm⟩
    | cons first late =>
      obtain ⟨rfl, -⟩ := List.cons_eq_cons.1 own
      have inside : Step.declaration index d ∈ s.project.indexed.flatMap (overrideSteps s) := by
        simp [overrides]
      obtain ⟨entry, -, member⟩ := List.mem_flatMap.1 inside
      exact absurd member declaration_not_mem_overrideSteps

theorem settled_of_asks {m : Module} {raw wanted : String} {front back : List Step}
    (present : s.project.module? index = some m) (heeded : s.policy.ignoresModule m = false)
    (declares : d ∈ m.declarations) (asks : Override.Asks s d raw wanted)
    (split : steps s = front ++ .declaration index d :: back) :
    (index, d.coordinate) ∈ (({} : Run).perform s front).overridden := by
  obtain ⟨mid, rfl⟩ := exists_alignment_front split
  rw [perform_append, perform_flatMap s _ _ (perform_overrideSteps s)]
  exact perform_induction (motive := fun run => (index, d.coordinate) ∈ run.overridden)
    (mem_overridden_all ⟨present, heeded⟩ declares asks)
    fun _ _ _ settled => mem_overridden_perform.2 (.inl settled)

end Run

end VersionAlignment
