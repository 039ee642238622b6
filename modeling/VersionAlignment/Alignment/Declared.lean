import VersionAlignment.Alignment.Override
import VersionAlignment.Alignment.Verdict

set_option autoImplicit false

namespace VersionAlignment

def Declaration.key (d : Declaration) : Coordinate × Place := (d.coordinate, d.place)

def firstDeclarations (seen : List (Coordinate × Place)) : List Declaration → List Declaration
  | [] => []
  | d :: rest =>
    if d.key ∈ seen then firstDeclarations seen rest
    else d :: firstDeclarations (d.key :: seen) rest

def Declaration.IsFirst (d : Declaration) (ds : List Declaration) : Prop :=
  ∃ before after, ds = before ++ d :: after ∧ d.key ∉ before.map Declaration.key

theorem Declaration.isFirst_cons {d e : Declaration} {ds : List Declaration} :
    d.IsFirst (e :: ds) ↔ d = e ∨ d.key ≠ e.key ∧ d.IsFirst ds := by
  constructor
  · rintro ⟨before, after, split, new⟩
    cases before with
    | nil =>
      simp only [List.nil_append, List.cons.injEq] at split
      exact .inl split.1.symm
    | cons first before =>
      simp only [List.cons_append, List.cons.injEq] at split
      simp only [List.map_cons, List.mem_cons, not_or, ← split.1] at new
      exact .inr ⟨new.1, before, after, split.2, new.2⟩
  · rintro (rfl | ⟨other, before, after, split, new⟩)
    · exact ⟨[], ds, rfl, by simp⟩
    · exact ⟨e :: before, after, by rw [split]; rfl, by simp_all⟩

theorem mem_firstDeclarations {d : Declaration} {seen : List (Coordinate × Place)}
    {ds : List Declaration} : d ∈ firstDeclarations seen ds ↔ d.key ∉ seen ∧ d.IsFirst ds := by
  induction ds generalizing seen with
  | nil => simp [firstDeclarations, Declaration.IsFirst]
  | cons e ds ih =>
    rw [Declaration.isFirst_cons, firstDeclarations]
    split
    · next old =>
      rw [ih]
      grind
    · next new =>
      rw [List.mem_cons, ih, List.mem_cons, not_or]
      grind

namespace Run

def alignDeclaration (s : Setting) (index : Nat) (run : Run) (d : Declaration) : Run :=
  match d.version with
  | none => run
  | some raw => run.carryOut s index d.coordinate raw (judge s run index d raw)

def alignModule (s : Setting) (run : Run) (entry : Module × Nat) : Run :=
  let (m, index) := entry
  if s.policy.ignoresModule m then run.note s!"Skipping ignored module {m}"
  else (firstDeclarations [] m.declarations).foldl (alignDeclaration s index)
    (run.note s!"Aligning module {m}")

def declared (s : Setting) : Run :=
  -- The overrides of all modules go before the first decision of the channel.
  s.project.indexed.foldl (alignModule s) (Override.all s {})

end Run

end VersionAlignment
