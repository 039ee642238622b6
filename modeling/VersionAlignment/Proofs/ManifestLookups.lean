import VersionAlignment.Channel.Index
import VersionAlignment.Sorted

set_option autoImplicit false

namespace VersionAlignment

namespace Stream

def names (stream : Stream) (c : Coordinate) : Bool :=
  c.group == stream.group && c.artifact == stream.artifact

def spans (stream : Stream) (c : Coordinate) : Bool :=
  stream.isWildcard && c.group == stream.group

end Stream

def Manifest.Covers (man : Manifest) (c : Coordinate) : Prop :=
  ∃ stream ∈ man.streams, stream.group = c.group ∧
    (stream.artifact = c.artifact ∨ stream.artifact = "*")

instance (man : Manifest) (c : Coordinate) : Decidable (man.Covers c) :=
  inferInstanceAs (Decidable (∃ stream ∈ man.streams, stream.group = c.group ∧
    (stream.artifact = c.artifact ∨ stream.artifact = "*")))

namespace ChannelIndex

theorem lookup_bindNew {κ : Type} [BEq κ] [LawfulBEq κ] (key other : κ) (version : String)
    (entries : List (κ × String)) : (bindNew key version entries).1.lookup other =
      (entries.lookup other).or (if other == key then some version else none) := by
  unfold bindNew
  split
  · next kept bound =>
    cases same : other == key with
    | true => simp [eq_of_beq same, bound]
    | false => simp
  · rw [List.lookup_append, List.lookup_cons]
    cases other == key <;> rfl

variable {c : Coordinate}

theorem lookup_artifacts_addAll (index : ChannelIndex) (streams : List Stream) :
    (index.addAll streams).artifacts.lookup (c.group, c.artifact) =
      (index.artifacts.lookup (c.group, c.artifact)).or
        ((streams.find? fun s => !s.isWildcard && s.names c).map (·.version)) := by
  induction streams generalizing index with
  | nil => simp [addAll]
  | cons s rest ih =>
    rw [addAll, ih, List.find?_cons]
    cases wild : s.isWildcard with
    | true => simp [add, wild]
    | false =>
      have key : ((c.group, c.artifact) == (s.group, s.artifact)) = s.names c := rfl
      simp only [add, wild, Bool.false_eq_true, if_false, lookup_bindNew, key]
      cases s.names c <;> simp

theorem lookup_groups_addAll (index : ChannelIndex) (streams : List Stream) :
    (index.addAll streams).groups.lookup c.group =
      (index.groups.lookup c.group).or ((streams.find? (·.spans c)).map (·.version)) := by
  induction streams generalizing index with
  | nil => simp [addAll]
  | cons s rest ih =>
    rw [addAll, ih, List.find?_cons]
    cases wild : s.isWildcard with
    | false => simp [add, wild, Stream.spans]
    | true =>
      have key : (c.group == s.group) = s.spans c := by simp [Stream.spans, wild]
      simp only [add, wild, if_true, lookup_bindNew, key]
      cases s.spans c <;> simp

theorem version?_ofManifest (man : Manifest) (c : Coordinate) :
    (ofManifest man).version? c =
      ((man.streams.find? (·.names c)).or (man.streams.find? (·.spans c))).map (·.version) := by
  rw [version?, ofManifest, lookup_artifacts_addAll, lookup_groups_addAll, Option.map_or]
  by_cases whole : c.artifact = "*"
  · -- Such a coordinate is named by the streams of its whole group only.
    have same (s : Stream) : s.names c = s.spans c := by
      rw [Bool.eq_iff_iff]
      simp only [Stream.names, Stream.spans, Stream.isWildcard, whole, Bool.and_eq_true,
        beq_iff_eq]
      rw [and_comm, eq_comm (a := "*")]
    have skipped : (man.streams.find? fun s => !s.isWildcard && s.spans c) = none := by
      rw [List.find?_eq_none]
      intro s _
      cases wild : s.isWildcard <;> simp [Stream.spans, wild]
    simp [same, skipped]
  · have same (s : Stream) : (!s.isWildcard && s.names c) = s.names c := by
      by_cases wild : s.artifact = "*" <;> simp [Stream.isWildcard, Stream.names, wild, whole]
    simp [same]

theorem version?_eq_none {man : Manifest} {c : Coordinate} :
    (ofManifest man).version? c = none ↔ ¬ man.Covers c := by
  rw [version?_ofManifest, Option.map_eq_none_iff, Option.or_eq_none_iff, List.find?_eq_none,
    List.find?_eq_none]
  simp only [Manifest.Covers, Stream.names, Stream.spans, Stream.isWildcard]
  grind

end ChannelIndex

end VersionAlignment
