import Mathlib.Data.List.Induction
import VersionAlignment.Proofs.Discovery
import VersionAlignment.Proofs.GraphWalks

set_option autoImplicit false

namespace VersionAlignment.Candidates

-- Maven's order is not transitive, so none of several versions need be the greatest one. Which one
-- is left then depends on the order in which they are met.
/-- What is left of versions that are met one after another: a later one only takes the place of
the one before if it is greater. -/
inductive Keeps (order : String → String → Ordering) : List String → String → Prop
  | first (version : String) : Keeps order [version] version
  | raised {met : List String} {old version : String} : Keeps order met old →
    order version old = .gt → Keeps order (met ++ [version]) version
  | stays {met : List String} {old version : String} : Keeps order met old →
    order version old ≠ .gt → Keeps order (met ++ [version]) old

variable {order : String → String → Ordering} {met : List String} {kept version : String}

theorem not_keeps_nil : ¬ Keeps order [] kept := by
  intro keeps
  generalize none : ([] : List String) = met at keeps
  cases keeps <;> simp at none

theorem keeps_concat : Keeps order (met ++ [version]) kept ↔
    met = [] ∧ kept = version ∨
      ∃ old, Keeps order met old ∧ kept = if order version old = .gt then version else old := by
  constructor
  · intro keeps
    generalize whole : met ++ [version] = all at keeps
    cases keeps with
    | first =>
      obtain ⟨rfl, same⟩ := List.append_eq_singleton_iff.1 whole |>.resolve_right (by simp)
      exact .inl ⟨rfl, (List.singleton_inj.1 same).symm⟩
    | raised before greater =>
      obtain ⟨rfl, rfl⟩ := List.append_singleton_inj.1 whole
      exact .inr ⟨_, before, (if_pos greater).symm⟩
    | stays before kept =>
      obtain ⟨rfl, rfl⟩ := List.append_singleton_inj.1 whole
      exact .inr ⟨_, before, (if_neg kept).symm⟩
  · rintro (⟨rfl, rfl⟩ | ⟨old, before, rfl⟩)
    · exact .first _
    · split
      · next greater => exact .raised before greater
      · next below => exact .stays before below

theorem Keeps.unique {other : String} (keeps : Keeps order met kept)
    (keeps' : Keeps order met other) : kept = other := by
  induction met using List.reverseRecOn generalizing kept other with
  | nil => exact absurd keeps not_keeps_nil
  | append_singleton met version ih =>
    rcases keeps_concat.1 keeps with ⟨rfl, rfl⟩ | ⟨old, before, rfl⟩
    · rcases keeps_concat.1 keeps' with ⟨-, rfl⟩ | ⟨old, before, -⟩
      · rfl
      · exact absurd before not_keeps_nil
    · rcases keeps_concat.1 keeps' with ⟨rfl, -⟩ | ⟨old', before', rfl⟩
      · exact absurd before not_keeps_nil
      · rw [ih before before']

theorem Keeps.mem (keeps : Keeps order met kept) : kept ∈ met := by
  induction keeps with
  | first | raised => simp
  | stays _ _ ih => exact List.mem_append_left _ ih

theorem Keeps.greatest [Std.TransCmp order] (keeps : Keeps order met kept) :
    ∀ version ∈ met, order version kept ≠ .gt := by
  induction keeps with
  | first version => simp [Std.ReflCmp.compare_self]
  | @raised met old version _ greater ih =>
    intro other member
    rcases List.mem_append.1 member with before | last
    · have below := Ordering.isLE_iff_ne_gt.2 (ih other before)
      simp [Std.TransCmp.lt_of_isLE_of_lt below (Std.OrientedCmp.lt_of_gt greater)]
    · simp [List.mem_singleton.1 last, Std.ReflCmp.compare_self]
  | stays _ below ih =>
    intro other member
    rcases List.mem_append.1 member with before | last
    · exact ih other before
    · exact List.mem_singleton.1 last ▸ below

section

variable {s : Setting} {graphs : List Forest} {c : Coordinate}

def occursAs (s : Setting) (c : Coordinate) (node : GraphNode) : Bool :=
  node.artifact.coordinate = c && !s.policy.ignoresScope node.effectiveScope

/-- The versions of a coordinate, in the order in which a walk over the graphs meets them. -/
def versions (s : Setting) (graphs : List Forest) (c : Coordinate) : List String :=
  ((graphs.flatMap Forest.preorder).filter (occursAs s c)).map (·.artifact.version)

theorem mem_versions : version ∈ versions s graphs c ↔
    ∃ node, Occurs s graphs c node ∧ node.artifact.version = version := by
  simp only [versions, occursAs, List.mem_map, List.mem_filter, List.mem_flatMap,
    ← Forest.nodes_eq_preorder, Forest.mem_nodes, Bool.and_eq_true, decide_eq_true_eq,
    Bool.not_eq_true']
  constructor
  · rintro ⟨node, ⟨inside, own, heeded⟩, same⟩
    exact ⟨node, ⟨inside, own, heeded⟩, same⟩
  · rintro ⟨node, ⟨inside, own, heeded⟩, same⟩
    exact ⟨node, ⟨inside, own, heeded⟩, same⟩

theorem keeps_greatest [Std.TransCmp s.given.order]
    (keeps : Keeps s.given.order (versions s graphs c) kept) :
    (∃ node, Occurs s graphs c node ∧ node.artifact.version = kept) ∧
      ∀ node, Occurs s graphs c node → s.given.order node.artifact.version kept ≠ .gt :=
  ⟨mem_versions.1 keeps.mem, fun node occurs =>
    keeps.greatest _ (mem_versions.2 ⟨node, occurs, rfl⟩)⟩

end

end VersionAlignment.Candidates
