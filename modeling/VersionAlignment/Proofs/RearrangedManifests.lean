import VersionAlignment.Proofs.ManifestChannel

set_option autoImplicit false

namespace VersionAlignment

def Stream.key (s : Stream) : String × String := (s.group, s.artifact)

namespace Manifest

def streamsOf (man : Manifest) (key : String × String) : List Stream :=
  man.streams.filter (·.key == key)

/-- Of each name the first stream of the other manifest is there, then some of the later ones in
their order. Where the streams of different names stand is left open. -/
def Rearranges (man other : Manifest) : Prop :=
  ∀ key, ∃ later, later.Sublist (other.streamsOf key).tail ∧
    man.streamsOf key = (other.streamsOf key).head?.toList ++ later

variable {man other third : Manifest} {a b : Stream}

theorem exists_later_of_eq {streams streams' : List Stream} (same : streams = streams') :
    ∃ later, later.Sublist streams'.tail ∧ streams = streams'.head?.toList ++ later := by
  subst same
  exact ⟨streams.tail, .refl _, by cases streams <;> rfl⟩

theorem Rearranges.head?_streamsOf (rearranges : man.Rearranges other) (key : String × String) :
    (man.streamsOf key).head? = (other.streamsOf key).head? := by
  obtain ⟨later, kept, same⟩ := rearranges key
  rw [same]
  cases streams : other.streamsOf key with
  | nil =>
    rw [streams] at kept
    simpa using List.sublist_nil.1 kept
  | cons first rest => rfl

theorem Rearranges.trans (rearranges : man.Rearranges other)
    (rearranges' : other.Rearranges third) : man.Rearranges third := by
  intro key
  obtain ⟨later, kept, same⟩ := rearranges key
  obtain ⟨later', kept', same'⟩ := rearranges' key
  have tail : (other.streamsOf key).tail.Sublist (third.streamsOf key).tail := by
    rw [same']
    cases streams : third.streamsOf key with
    | nil =>
      rw [streams] at kept'
      simp [List.sublist_nil.1 kept']
    | cons first rest =>
      rw [streams] at kept'
      exact kept'
  exact ⟨later, kept.trans tail, by rw [same, rearranges'.head?_streamsOf]⟩

theorem rearranges_omit (before after : List Stream) (again : a.key ∈ before.map Stream.key)
    (streams : other.streams = before ++ a :: after)
    (omitted : man.streams = before ++ after) : man.Rearranges other := by
  intro key
  rw [streamsOf, streamsOf, streams, omitted, List.filter_append, List.filter_append]
  by_cases own : a.key = key
  · obtain ⟨first, member, named⟩ := List.mem_map.1 again
    have inside : first ∈ before.filter (·.key == key) := by simp [member, named, own]
    obtain ⟨first, rest, front⟩ := List.exists_cons_of_ne_nil (List.ne_nil_of_mem inside)
    refine ⟨rest ++ after.filter (·.key == key), ?_, ?_⟩
    · simp [front, own]
    · simp [front]
  · exact exists_later_of_eq (by simp [own])

theorem rearranges_swap (before after : List Stream) (different : a.key ≠ b.key)
    (streams : other.streams = before ++ a :: b :: after)
    (swapped : man.streams = before ++ b :: a :: after) : man.Rearranges other := by
  intro key
  refine exists_later_of_eq ?_
  rw [streamsOf, streamsOf, streams, swapped, List.filter_append, List.filter_append]
  by_cases own : a.key = key
  · have foreign : b.key ≠ key := own ▸ different.symm
    simp [own, foreign]
  · simp [List.filter_cons, own]

theorem find?_names_eq (man : Manifest) (c : Coordinate) :
    man.streams.find? (·.names c) = (man.streamsOf (c.group, c.artifact)).head? := by
  rw [streamsOf, List.head?_filter]
  refine congrArg (man.streams.find? ·) (funext fun s => ?_)
  rw [Bool.eq_iff_iff]
  simp only [Stream.names, Stream.key, Bool.and_eq_true, beq_iff_eq, Prod.mk.injEq]
  exact and_congr eq_comm eq_comm

theorem find?_spans_eq (man : Manifest) (c : Coordinate) :
    man.streams.find? (·.spans c) = (man.streamsOf (c.group, "*")).head? := by
  rw [streamsOf, List.head?_filter]
  refine congrArg (man.streams.find? ·) (funext fun s => ?_)
  rw [Bool.eq_iff_iff]
  simp only [Stream.spans, Stream.isWildcard, Stream.key, Bool.and_eq_true, beq_iff_eq,
    Prod.mk.injEq]
  exact and_comm.trans (and_congr_left fun _ => eq_comm)

/-- A channel gives a coordinate the version of the first stream that names it, and that of the
first stream of its whole group if none does. Nothing else about the coordinate, its version or the
manifest counts. -/
theorem channel_first (man : Manifest) (given : Surroundings) (c : Coordinate) (current : String) :
    (man.serve given).channel c current =
      ((man.streams.find? (·.names c)).or (man.streams.find? (·.spans c))).map (·.version) ∧
    (∀ (like : Coordinate) (version : String), like.group = c.group → like.artifact = c.artifact →
      (man.serve given).channel like version = (man.serve given).channel c current) ∧
    ∀ other : Manifest, other.Rearranges man →
      (other.serve given).channel c current = (man.serve given).channel c current := by
  have first (man : Manifest) (c : Coordinate) (current : String) :
      (man.serve given).channel c current = ((man.streamsOf (c.group, c.artifact)).head?.or
        (man.streamsOf (c.group, "*")).head?).map (·.version) := by
    rw [← find?_names_eq, ← find?_spans_eq]
    exact ChannelIndex.version?_ofManifest man c
  refine ⟨ChannelIndex.version?_ofManifest man c, ?_, ?_⟩
  · intro like version group artifact
    rw [first, first, group, artifact]
  · intro other rearranges
    rw [first, first, rearranges.head?_streamsOf, rearranges.head?_streamsOf]

theorem channel_first_codec :
    let codec : Coordinate := ⟨"io.netty", "netty-codec", "jar", none⟩
    let native : Coordinate := ⟨"io.netty", "netty-codec", "so", some "linux"⟩
    let man : Manifest := { streams := [⟨"io.netty", "netty-codec", "2.1"⟩,
      ⟨"io.netty", "*", "2.0"⟩, ⟨"io.netty", "netty-codec", "2.2"⟩] }
    let other : Manifest := { streams := [⟨"io.netty", "*", "2.0"⟩,
      ⟨"io.netty", "netty-codec", "2.1"⟩] }
    other.Rearranges man ∧ (man.serve .alone).channel codec "1.0" = some "2.1" ∧
      (man.serve .alone).channel native "3.0" = some "2.1" ∧
      (other.serve .alone).channel codec "1.0" = some "2.1" := by
  intro codec native man other
  have omitted : twoVersions.Rearranges man :=
    rearranges_omit twoVersions.streams [] (by decide) rfl rfl
  have swapped : other.Rearranges twoVersions :=
    rearranges_swap [] [] (by decide) rfl rfl
  have rearranges := swapped.trans omitted
  obtain ⟨named, alike, unmoved⟩ := man.channel_first .alone codec "1.0"
  have version : (man.serve .alone).channel codec "1.0" = some "2.1" := named
  exact ⟨rearranges, version, (alike native "3.0" rfl rfl).trans version,
    (unmoved other rearranges).trans version⟩

end Manifest

end VersionAlignment
