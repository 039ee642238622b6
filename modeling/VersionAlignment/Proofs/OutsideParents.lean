import VersionAlignment.Proofs.LoadedDescriptors
import VersionAlignment.Proofs.Rebinding

set_option autoImplicit false

namespace VersionAlignment

def Coordinate.Plain (c : Coordinate) : Prop := c.kind = "jar" ∧ c.classifier = none

instance (c : Coordinate) : Decidable c.Plain := inferInstanceAs (Decidable (_ ∧ _))

theorem Artifact.eq_of_key {a b : Artifact} (same : a.key = b.key) (plain : a.coordinate.Plain)
    (plain' : b.coordinate.Plain) : a = b := by
  obtain ⟨⟨group, artifact, kind, classifier⟩, version⟩ := a
  obtain ⟨⟨group', artifact', kind', classifier'⟩, version'⟩ := b
  obtain ⟨rfl, rfl⟩ := plain
  obtain ⟨rfl, rfl⟩ := plain'
  cases same
  rfl

section

variable {α β : Type}

theorem exists_related {r : α → β → Prop} {as : List α} {bs : List β}
    (related : List.Forall₂ r as bs) {a : α} (member : a ∈ as) : ∃ b ∈ bs, r a b := by
  induction related with
  | nil => simp at member
  | cons first _ ih =>
    rcases List.mem_cons.1 member with rfl | member
    · exact ⟨_, List.mem_cons_self, first⟩
    · obtain ⟨b, inside, own⟩ := ih member
      exact ⟨b, List.mem_cons_of_mem _ inside, own⟩

theorem mapM_eq_some {f : α → Option β} {as : List α} {bs : List β} (reads : as.mapM f = some bs) :
    List.Forall₂ (fun a b => f a = some b) as bs := by
  induction as generalizing bs with
  | nil =>
    cases reads
    exact .nil
  | cons a as ih =>
    rw [List.mapM_cons] at reads
    obtain ⟨b, read, others⟩ := Option.bind_eq_some_iff.1 reads
    obtain ⟨rest, tail, whole⟩ := Option.bind_eq_some_iff.1 others
    cases whole
    exact .cons read (ih tail)

end

namespace Toml

variable {α : Type}

theorem exists_of_mem_list {fields : Fields} {place : Nat} {name : String}
    {read : Value → Option α} {as : List α}
    (reads : fields.withDefault place name [] (Value.list? read) = some as) {a : α}
    (member : a ∈ as) : ∃ v, read v = some a := by
  unfold Fields.withDefault at reads
  split at reads
  · next v _ =>
    cases v with
    | array values =>
      obtain ⟨v, -, read⟩ := exists_related (mapM_eq_some reads).flip member
      exact ⟨v, read⟩
    | string _ | integer _ | float _ | boolean _ | moment _ | table _ => cases reads
  · cases reads
    simp at member

end Toml

structure OutsideEntry.Gives (e : OutsideEntry) (o : OutsideParent) : Prop where
  artifact : o.artifact = e.artifact
  properties : o.properties = e.properties
  orphan : e.parent = none → o.parent = none
  parent : ∀ text, e.parent = some text → ∃ a, Artifact.ofText? text = some a ∧ o.parent = some a

namespace OutsideEntry

variable {e : OutsideEntry} {o : OutsideParent}

theorem gives_of_read (reads : e.read = .ok o) : e.Gives o := by
  obtain ⟨parent, above, reads⟩ := bind_eq_ok.1 reads
  cases reads
  refine ⟨rfl, rfl, fun nothing => ?_, fun text written => ?_⟩
  · rw [nothing] at above
    cases above
    rfl
  · rw [written, Option.mapM_some] at above
    cases parsed : Artifact.ofText text with
    | error _ =>
      rw [parsed] at above
      cases above
    | ok a =>
      rw [parsed] at above
      cases above
      exact ⟨a, Artifact.ofText_eq_ok.1 parsed, rfl⟩

theorem plain_of_value {v : Toml.Value} (taken : ofValue? v = some e) :
    e.artifact.coordinate.Plain := by
  simp only [ofValue?, Option.bind_eq_bind, Option.bind_eq_some_iff] at taken
  obtain ⟨fields, -, group, -, artifact, -, version, -, parent, -, properties, -, taken⟩ := taken
  cases taken
  exact ⟨rfl, rfl⟩

end OutsideEntry

namespace DescriptorEntry

def writtenParents (e : DescriptorEntry) : List String :=
  e.modules.filterMap (·.parent) ++ e.outsideParents.filterMap (·.parent)

theorem plain_of_table {table : Toml.Table} {e : DescriptorEntry} (taken : ofTable? table = some e) :
    ∀ entry ∈ e.outsideParents, entry.artifact.coordinate.Plain := by
  simp only [ofTable?, Option.bind_eq_bind, Option.bind_eq_some_iff] at taken
  obtain ⟨modules, -, outside, reads, taken⟩ := taken
  cases taken
  intro entry member
  obtain ⟨v, read⟩ := Toml.exists_of_mem_list reads member
  exact OutsideEntry.plain_of_value read

end DescriptorEntry

namespace Property

variable {parents : List OutsideParent} {parent : Artifact} {definition : OutsideParent}
  {name value : String}

theorem outsideParent?_of_plain (plain : ∀ o ∈ parents, o.artifact.coordinate.Plain)
    (parent : Artifact) : outsideParent? parents parent =
      if parent.coordinate.Plain then (parents.filter (·.artifact.key == parent.key)).getLast?
      else none := by
  rw [outsideParent?]
  split
  · next own =>
    congr 1
    refine List.filter_congr fun o member => ?_
    rw [Bool.eq_iff_iff, beq_iff_eq, beq_iff_eq]
    exact ⟨congrArg Artifact.key, fun same => Artifact.eq_of_key same (plain o member) own⟩
  · next other =>
    have none : parents.filter (·.artifact == parent) = [] := by
      refine List.filter_eq_nil_iff.2 fun o member same => other ?_
      rw [← beq_iff_eq.1 same]
      exact plain o member
    rw [none]
    rfl

theorem resolveOutside_literal (found : outsideParent? parents parent = some definition)
    (bound : definition.properties.lookup name = some value) (literal : reference? value = none) :
    resolveOutside parents parent name = .ok (some value) :=
  walk_of_stop (by simp [outsideMove, found, bound, literal])

theorem resolveOutside_unknown (unknown : outsideParent? parents parent = none) :
    resolveOutside parents parent name = .ok none :=
  walk_of_stop (by simp [outsideMove, unknown])

theorem resolveOutside_single (plain : ∀ o ∈ parents, o.artifact.coordinate.Plain)
    (single : parents.filter (·.artifact.key == parent.key) = [definition])
    (bound : definition.properties.lookup name = some value) (literal : reference? value = none) :
    resolveOutside parents parent name =
      .ok (if parent.coordinate.Plain then some value else none) := by
  have found := outsideParent?_of_plain plain parent
  rw [single] at found
  by_cases own : parent.coordinate.Plain
  · rw [if_pos own] at found ⊢
    exact resolveOutside_literal found bound literal
  · rw [if_neg own] at found ⊢
    exact resolveOutside_unknown found

end Property

namespace Descriptor

open Property

variable {e : DescriptorEntry} {d : Descriptor}

theorem outsideParents_of_read (reads : e.read = .ok d) :
    List.Forall₂ OutsideEntry.Gives e.outsideParents d.outsideParents := by
  obtain ⟨-, -, -, -, -, above⟩ := DescriptorEntry.read_eq_ok reads
  exact above.imp fun _ _ => OutsideEntry.gives_of_read

theorem plain_of_read (plain : ∀ entry ∈ e.outsideParents, entry.artifact.coordinate.Plain)
    (reads : e.read = .ok d) : ∀ o ∈ d.outsideParents, o.artifact.coordinate.Plain := by
  intro o member
  obtain ⟨entry, inside, gives⟩ := exists_related (outsideParents_of_read reads).flip member
  rw [gives.artifact]
  exact plain entry inside

theorem exists_ofText_of_written (reads : e.read = .ok d) {written : String}
    (member : written ∈ e.writtenParents) : ∃ parent, Artifact.ofText? written = some parent := by
  rcases List.mem_append.1 member with inside | outside
  · obtain ⟨entry, listed, own⟩ := List.mem_filterMap.1 inside
    obtain ⟨m, -, gives⟩ := exists_related (loads_of_read reads).modules listed
    obtain ⟨parent, parsed, -⟩ := gives.parent written own
    exact ⟨parent, parsed⟩
  · obtain ⟨entry, listed, own⟩ := List.mem_filterMap.1 outside
    obtain ⟨o, -, gives⟩ := exists_related (outsideParents_of_read reads) listed
    obtain ⟨parent, parsed, -⟩ := gives.parent written own
    exact ⟨parent, parsed⟩

/-- In every document that is accepted, a module is found as a parent by group, artifact and version
alone. An outside parent that is the only one with the written ones gives its literals to a parent
written plainly, and none to any other. -/
theorem ofText_finds_parents {document : String} {d : Descriptor}
    (accepted : ofText document = .ok d) :
    ∃ e, (Toml.read? document).bind DescriptorEntry.ofTable? = some e ∧
      List.Forall₂ (ModuleEntry.Gives d.project) e.modules d.project.modules ∧
      List.Forall₂ OutsideEntry.Gives e.outsideParents d.outsideParents ∧
      ∀ written ∈ e.writtenParents, ∃ parent, Artifact.ofText? written = some parent ∧
        ∀ definition, d.outsideParents.filter (·.artifact.key == parent.key) = [definition] →
          ∀ name value, definition.properties.lookup name = some value → reference? value = none →
            resolveOutside d.outsideParents parent name =
              .ok (if parent.coordinate.Plain then some value else none) := by
  unfold ofText at accepted
  split at accepted
  · next e taken =>
    obtain ⟨table, -, entry⟩ := Option.bind_eq_some_iff.1 taken
    have plain := plain_of_read (DescriptorEntry.plain_of_table entry) accepted
    refine ⟨e, taken, (loads_of_read accepted).modules, outsideParents_of_read accepted,
      fun written member => ?_⟩
    obtain ⟨parent, parsed⟩ := exists_ofText_of_written accepted member
    exact ⟨parent, parsed, fun _ single _ _ => resolveOutside_single plain single⟩
  · cases accepted

def jbossText : String :=
  "[[modules]]
group_id = \"org.acme\"
artifact_id = \"acme\"
version = \"1\"
parent = \"org.jboss:jboss-parent:pom:39\"
execution_root = true
[[modules]]
group_id = \"org.acme\"
artifact_id = \"core\"
version = \"1\"
parent = \"org.jboss:jboss-parent:39\"
[[external_parents]]
group_id = \"org.jboss\"
artifact_id = \"jboss-parent\"
version = \"39\"
[external_parents.properties]
netty = \"4.1\"
"

def jbossParent : OutsideParent :=
  ⟨⟨⟨"org.jboss", "jboss-parent", "jar", none⟩, "39"⟩, none, [("netty", "4.1")]⟩

def jbossPom : Artifact := ⟨⟨"org.jboss", "jboss-parent", "pom", none⟩, "39"⟩

def jbossProject : Project where
  modules :=
    [{ group := "org.acme", artifact := "acme", version := "1", isRoot := true,
       parent := some (.outside jbossPom) },
     { group := "org.acme", artifact := "core", version := "1",
       parent := some (.outside jbossParent.artifact) }]
  root := 0

set_option maxRecDepth 4000 in
theorem ofText_jboss : ∃ d, ofText jbossText = .ok d ∧ d.project = jbossProject ∧
    d.outsideParents = [jbossParent] := by
  have evaluated : ∃ d, ofText jbossText = .ok d ∧
      (d.project, d.outsideParents) = (jbossProject, [jbossParent]) := by
    refine accepts_of_spelled jbossText _ _ rfl ?_
    decide +kernel
  simpa only [Prod.mk.injEq] using evaluated

set_option maxRecDepth 4000 in
theorem ofText_finds_parents_jboss : ∃ d, ofText jbossText = .ok d ∧
    d.outsideParents.filter (·.artifact.key == jbossParent.artifact.key) = [jbossParent] ∧
    jbossParent.properties.lookup "netty" = some "4.1" ∧ reference? "4.1" = none ∧
    resolveOutside d.outsideParents jbossParent.artifact "netty" = .ok (some "4.1") := by
  have texts : ((Toml.read? jbossText).bind DescriptorEntry.ofTable?).map
      DescriptorEntry.writtenParents =
        some ["org.jboss:jboss-parent:pom:39", "org.jboss:jboss-parent:39"] := by
    have spelled : Toml.read? jbossText = _ := read?_of_spelled rfl
    rw [spelled]
    decide +kernel
  have parses : Artifact.ofText? "org.jboss:jboss-parent:39" = some jbossParent.artifact := by
    decide +kernel
  have literal : reference? "4.1" = none := by decide +kernel
  obtain ⟨d, accepted, -, outside⟩ := ofText_jboss
  obtain ⟨e, taken, -, -, finds⟩ := ofText_finds_parents accepted
  rw [taken, Option.map_some, Option.some.injEq] at texts
  obtain ⟨parent, parsed, gives⟩ := finds "org.jboss:jboss-parent:39" (by simp [texts])
  obtain rfl : jbossParent.artifact = parent := Option.some.inj (parses.symm.trans parsed)
  have single : d.outsideParents.filter (·.artifact.key == jbossParent.artifact.key) =
      [jbossParent] := by
    rw [outside]
    decide
  exact ⟨d, accepted, single, rfl, literal, gives jbossParent single "netty" "4.1" rfl literal⟩

theorem ofText_misses_parent : ∃ d, ofText jbossText = .ok d ∧
    Artifact.ofText? "org.jboss:jboss-parent:pom:39" = some jbossPom ∧
    d.project.modules.map (·.parent) =
      [some (.outside jbossPom), some (.outside jbossParent.artifact)] ∧
    (∀ m ∈ d.project.modules, m.identity.key ≠ jbossPom.key) ∧
    d.outsideParents.filter (·.artifact.key == jbossPom.key) = [jbossParent] ∧
    jbossParent.properties.lookup "netty" = some "4.1" ∧ reference? "4.1" = none ∧
    resolveOutside d.outsideParents jbossPom "netty" = .ok none ∧
    resolve d.project (resolveOutside d.outsideParents) 0 "netty" = .ok none ∧
    resolve d.project (resolveOutside d.outsideParents) 1 "netty" =
      .ok (some ⟨⟨1, "netty", true⟩, "4.1"⟩) := by
  obtain ⟨d, accepted, project, outside⟩ := ofText_jboss
  refine ⟨d, accepted, ?_⟩
  rw [project, outside]
  decide +kernel

end Descriptor

end VersionAlignment
