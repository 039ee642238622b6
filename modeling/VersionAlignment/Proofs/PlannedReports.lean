import Mathlib.Data.List.Forall2
import VersionAlignment.Plan.Basic
import VersionAlignment.Proofs.LoadedDescriptors
import VersionAlignment.Proofs.ManifestChannel
import VersionAlignment.Proofs.ReportedDeclarations

set_option autoImplicit false

namespace VersionAlignment

open Text (IsPart)

theorem Text.joinWith_inj {parts others : List String} (some : parts ≠ []) (some' : others ≠ [])
    (each : ∀ part ∈ parts, IsPart part) (each' : ∀ part ∈ others, IsPart part) :
    joinWith ":" parts = joinWith ":" others ↔ parts = others := by
  constructor
  · intro same
    calc parts = split ':' (joinWith ":" parts) :=
          (split_joinWith some fun part member => (each part member).flat).symm
      _ = split ':' (joinWith ":" others) := by rw [same]
      _ = others := split_joinWith some' fun part member => (each' part member).flat
  · exact fun same => congrArg _ same

namespace Coordinate

variable {c c' : Coordinate}

theorem eq_of_parts (same : c.parts = c'.parts) : c = c' := by
  -- The number of parts tells whether there is a classifier, and whether the kind is the usual one.
  obtain ⟨_, _, kind, _ | _⟩ := c <;> obtain ⟨_, _, kind', _ | _⟩ := c'
  · by_cases usual : kind = "jar" <;> by_cases usual' : kind' = "jar" <;>
      simp_all [parts]
  · by_cases usual : kind = "jar" <;> simp_all [parts]
  · by_cases usual : kind' = "jar" <;> simp_all [parts]
  · simpa [parts] using same

theorem text_inj (wellFormed : c.WellFormed) (wellFormed' : c'.WellFormed) :
    c.text = c'.text ↔ c = c' := by
  rw [text_eq, text_eq, Text.joinWith_inj c.parts_ne_nil c'.parts_ne_nil wellFormed.isPart
    wellFormed'.isPart]
  exact ⟨eq_of_parts, congrArg _⟩

end Coordinate

theorem Text.pair_inj {first second first' second' : String} (part : IsPart first)
    (part' : IsPart first') (rest : IsPart second) (rest' : IsPart second') :
    first ++ ":" ++ second = first' ++ ":" ++ second' ↔ first = first' ∧ second = second' := by
  rw [pair_eq_joinWith, pair_eq_joinWith, joinWith_inj (by simp) (by simp) (by simp [part, rest])
    (by simp [part', rest'])]
  simp

theorem Exclusion.text_inj {e e' : Exclusion} (wellFormed : e.WellFormed)
    (wellFormed' : e'.WellFormed) : e.text = e'.text ↔ e = e' := by
  rw [text, text, Text.pair_inj wellFormed.group wellFormed'.group wellFormed.artifact
    wellFormed'.artifact]
  cases e
  cases e'
  simp

theorem map_eq_map_iff_forall₂ {α β : Type} {f : α → β} {rel : α → α → Prop} {as bs : List α}
    (related : ∀ a ∈ as, ∀ b ∈ bs, f a = f b ↔ rel a b) :
    as.map f = bs.map f ↔ List.Forall₂ rel as bs := by
  induction as generalizing bs with
  | nil => cases bs <;> simp
  | cons a as ih =>
    cases bs with
    | nil => simp
    | cons b bs =>
      rw [List.map_cons, List.map_cons, List.cons.injEq, List.forall₂_cons,
        related a List.mem_cons_self b List.mem_cons_self]
      refine and_congr_right fun _ => ih fun c member d member' => ?_
      exact related c (List.mem_cons_of_mem _ member) d (List.mem_cons_of_mem _ member')

theorem map_inj_of_mem {α β : Type} {f : α → β} {as bs : List α}
    (injective : ∀ a ∈ as, ∀ b ∈ bs, f a = f b ↔ a = b) : as.map f = bs.map f ↔ as = bs := by
  rw [map_eq_map_iff_forall₂ injective, List.forall₂_eq_eq_eq]

theorem eq_of_forall₂ {α : Type} {rel : α → α → Prop} {as bs : List α}
    (related : List.Forall₂ rel as bs) (same : ∀ a b, rel a b → a = b) : as = bs := by
  have each : List.Forall₂ (· = ·) as bs := related.imp same
  rwa [List.forall₂_eq_eq_eq] at each

namespace Project

def WellNamed (p : Project) : Prop := ∀ m ∈ p.modules, IsPart m.group ∧ IsPart m.artifact

def Alike (p : Project) (i j : Nat) : Prop :=
  ∃ m n, p.module? i = some m ∧ p.module? j = some n ∧ m.group = n.group ∧ m.artifact = n.artifact

theorem moduleText_eq_iff {p : Project} (named : p.WellNamed) {i j : Nat}
    (inside : (p.module? i).isSome) (inside' : (p.module? j).isSome) :
    p.moduleText i = p.moduleText j ↔ p.Alike i j := by
  obtain ⟨m, present⟩ := Option.isSome_iff_exists.1 inside
  obtain ⟨n, present'⟩ := Option.isSome_iff_exists.1 inside'
  obtain ⟨group, artifact⟩ := named m (List.mem_of_getElem? present)
  obtain ⟨group', artifact'⟩ := named n (List.mem_of_getElem? present')
  have text : m.text = n.text ↔ m.group = n.group ∧ m.artifact = n.artifact :=
    Text.pair_inj group group' artifact artifact'
  simp [moduleText, Alike, present, present', text]

end Project

namespace Change

def moveTo (owner : Nat) : Change → Change
  | .setProperty _ name value => .setProperty owner name value
  | .injectProperty _ name value => .injectProperty owner name value
  | .overrideVersion _ c old new => .overrideVersion owner c old new
  | .manage _ c version exclusions former => .manage owner c version exclusions former

@[simp]
theorem moveTo_owner (change : Change) : change.moveTo change.owner = change := by
  cases change <;> rfl

def exclusions : Change → List Exclusion
  | .manage _ _ _ exclusions _ => exclusions
  | _ => []

/-- The module is one of the project, and all that is named has a text of its own. -/
structure IsOver (p : Project) (change : Change) : Prop where
  inside : (p.module? change.owner).isSome
  wellFormed : ∀ c ∈ change.coordinate?, c.WellFormed
  exclusions : ∀ e ∈ change.exclusions, e.WellFormed

@[mk_iff]
structure Alike (p : Project) (a b : Change) : Prop where
  owner : p.Alike a.owner b.owner
  moved : b = a.moveTo b.owner

end Change

namespace Plan

variable {p : Project}

theorem ofChange_eq_iff {a b : Change} (named : p.WellNamed) (isOver : a.IsOver p)
    (isOver' : b.IsOver p) : ofChange p a = ofChange p b ↔ a.Alike p b := by
  have owner := Project.moduleText_eq_iff named isOver.inside isOver'.inside
  rw [Change.alike_iff]
  -- Planned changes of different kinds are different, so both have to be of the same kind.
  cases a with
  | setProperty i name value =>
    cases b <;> simp_all [ofChange, Change.moveTo, Change.owner, eq_comm]
  | injectProperty i name value =>
    cases b <;> simp_all [ofChange, Change.moveTo, Change.owner, eq_comm]
  | overrideVersion i c old new =>
    cases b with
    | overrideVersion j c' old' new' =>
      have coordinate := Coordinate.text_inj (isOver.wellFormed c rfl) (isOver'.wellFormed c' rfl)
      simp_all [ofChange, Change.moveTo, Change.owner, eq_comm]
    | _ => simp [ofChange, Change.moveTo]
  | manage i c version exclusions former =>
    cases b with
    | manage j c' version' exclusions' former' =>
      have coordinate := Coordinate.text_inj (isOver.wellFormed c rfl) (isOver'.wellFormed c' rfl)
      have excluded : exclusions.map Exclusion.text = exclusions'.map Exclusion.text ↔
          exclusions = exclusions' :=
        map_inj_of_mem fun e member e' member' =>
          Exclusion.text_inj (isOver.exclusions e member) (isOver'.exclusions e' member')
      simp_all [ofChange, Change.moveTo, Change.owner, eq_comm, and_left_comm, and_comm]
    | _ => simp [ofChange, Change.moveTo]

end Plan

structure Unaligned.IsOver (p : Project) (u : Unaligned) : Prop where
  inside : (p.module? u.owner).isSome
  wellFormed : u.coordinate.WellFormed

@[mk_iff]
structure Unaligned.Alike (p : Project) (u v : Unaligned) : Prop where
  owner : p.Alike u.owner v.owner
  moved : v = { u with owner := v.owner }

theorem Plan.ofUnaligned_eq_iff {p : Project} {u v : Unaligned} (named : p.WellNamed)
    (isOver : u.IsOver p) (isOver' : v.IsOver p) :
    ofUnaligned p u = ofUnaligned p v ↔ u.Alike p v := by
  have owner := Project.moduleText_eq_iff named isOver.inside isOver'.inside
  have coordinate := Coordinate.text_inj isOver.wellFormed isOver'.wellFormed
  rw [Unaligned.alike_iff]
  cases u
  cases v
  simp_all [ofUnaligned, eq_comm]

namespace Report

structure IsOver (p : Project) (r : Report) : Prop where
  notCovered : ∀ c ∈ r.notCovered, c.WellFormed
  changes : ∀ change ∈ r.changes.changes, change.IsOver p
  unaligned : ∀ u ∈ r.unaligned, u.IsOver p

@[mk_iff]
structure Alike (p : Project) (r r' : Report) : Prop where
  notCovered : r.notCovered = r'.notCovered
  changes : List.Forall₂ (Change.Alike p) r.changes.changes r'.changes.changes
  unaligned : List.Forall₂ (Unaligned.Alike p) r.unaligned r'.unaligned

end Report

namespace Project

def NamesApart (p : Project) : Prop := (p.modules.map fun m => (m.group, m.artifact)).Nodup

variable {p : Project}

theorem NamesApart.index_eq (apart : p.NamesApart) {i j : Nat} (alike : p.Alike i j) : i = j := by
  obtain ⟨m, n, present, present', group, artifact⟩ := alike
  simp only [module?] at present present'
  obtain ⟨inside, -⟩ := List.getElem?_eq_some_iff.1 present
  exact (List.getElem?_inj (by simpa using inside) apart).1
    (by simp [present, present', group, artifact])

theorem NamesApart.change_eq (apart : p.NamesApart) {a b : Change} (alike : a.Alike p b) :
    a = b := by
  rw [alike.moved, ← apart.index_eq alike.owner, Change.moveTo_owner]

theorem NamesApart.unaligned_eq (apart : p.NamesApart) {u v : Unaligned} (alike : u.Alike p v) :
    u = v := by
  rw [alike.moved, ← apart.index_eq alike.owner]

theorem NamesApart.report_eq (apart : p.NamesApart) {r r' : Report} (alike : r.Alike p r') :
    r.changes = r'.changes ∧ r.notCovered = r'.notCovered ∧ r.unaligned = r'.unaligned := by
  obtain ⟨notCovered, changes, unaligned⟩ := alike
  have same : r.changes.changes = r'.changes.changes :=
    eq_of_forall₂ changes fun _ _ => apart.change_eq
  exact ⟨congrArg ChangeSet.mk same, notCovered,
    eq_of_forall₂ unaligned fun _ _ => apart.unaligned_eq⟩

end Project

/-- A plan keeps all of a report but which of several modules with the same group and artifact an
entry is about. -/
theorem Plan.ofReport_eq_iff {p : Project} (named : p.WellNamed) {r r' : Report}
    (isOver : r.IsOver p) (isOver' : r'.IsOver p) :
    (ofReport r p = ofReport r' p ↔ r.Alike p r') ∧
    (p.NamesApart → ofReport r p = ofReport r' p →
      r.changes = r'.changes ∧ r.notCovered = r'.notCovered ∧ r.unaligned = r'.unaligned) := by
  have notCovered : r.notCovered.map Coordinate.text = r'.notCovered.map Coordinate.text ↔
      r.notCovered = r'.notCovered :=
    map_inj_of_mem fun c member c' member' =>
      Coordinate.text_inj (isOver.notCovered c member) (isOver'.notCovered c' member')
  have changes := map_eq_map_iff_forall₂ fun a member b member' =>
    ofChange_eq_iff named (isOver.changes a member) (isOver'.changes b member')
  have unaligned := map_eq_map_iff_forall₂ fun u member v member' =>
    ofUnaligned_eq_iff named (isOver.unaligned u member) (isOver'.unaligned v member')
  have same : ofReport r p = ofReport r' p ↔ r.Alike p r' := by
    simp only [ofReport, Plan.mk.injEq, notCovered, changes, unaligned, Report.alike_iff]
  exact ⟨same, fun apart planned => apart.report_eq (same.1 planned)⟩

def mixedReport (classifier : String) : Report where
  changes := ⟨[
    .setProperty 0 "netty" "2.0",
    .overrideVersion 1 ⟨"io.netty", "netty-codec", "test-jar", some classifier⟩ "1.0" "2.0",
    .manage 0 ⟨"io.netty", "netty-common", "jar", none⟩ "2.0"
      [⟨"junit", "junit"⟩, ⟨"org.slf4j", "*"⟩] "1.0"]⟩
  notCovered := [⟨"junit", "junit", "jar", none⟩]
  unaligned := [⟨1, ⟨"org.slf4j", "slf4j-api", "pom", none⟩, "1.7", "2.0", .downgradeRefused⟩]

theorem mixedReport_isOver {classifier : String} (named : IsPart classifier) :
    (mixedReport classifier).IsOver twoReaders where
  notCovered := by
    simp only [mixedReport, List.mem_singleton, forall_eq]
    decide
  changes := by
    simp only [mixedReport, List.forall_mem_cons, List.not_mem_nil, false_implies, implies_true,
      and_true]
    refine ⟨⟨rfl, by simp [Change.coordinate?], by simp [Change.exclusions]⟩, ⟨rfl, ?_, ?_⟩,
      ⟨rfl, ?_, ?_⟩⟩
    · simp only [Change.coordinate?, Option.mem_def, Option.some.injEq, forall_eq']
      rw [Coordinate.wellFormed_iff]
      have fixed : IsPart "io.netty" ∧ IsPart "netty-codec" ∧ IsPart "test-jar" := by decide
      exact ⟨fixed.1, fixed.2.1, fixed.2.2, by simpa using named⟩
    · simp [Change.exclusions]
    · simp only [Change.coordinate?, Option.mem_def, Option.some.injEq, forall_eq']
      decide
    · simp only [Change.exclusions, List.forall_mem_cons, List.not_mem_nil, false_implies,
        implies_true, and_true]
      exact ⟨⟨by decide, by decide⟩, ⟨by decide, by decide⟩⟩
  unaligned := by
    simp only [mixedReport, List.mem_singleton, forall_eq]
    exact ⟨rfl, by decide⟩

theorem Plan.ofReport_eq_iff_mixedReport :
    let warned : Report := { mixedReport "linux" with
      warnings := [⟨1, ⟨"io.netty", "netty-codec", "jar", none⟩, none, "unresolved"⟩] }
    twoReaders.WellNamed ∧ twoReaders.NamesApart ∧ (mixedReport "linux").IsOver twoReaders ∧
      warned.IsOver twoReaders ∧ (mixedReport "osx").IsOver twoReaders ∧
      ofReport (mixedReport "linux") twoReaders = ofReport warned twoReaders ∧
      (mixedReport "linux").changes = warned.changes ∧
      ofReport (mixedReport "linux") twoReaders ≠ ofReport (mixedReport "osx") twoReaders := by
  intro warned
  have named : twoReaders.WellNamed := by unfold Project.WellNamed; decide
  have apart : twoReaders.NamesApart := by unfold Project.NamesApart; decide
  have isOver : (mixedReport "linux").IsOver twoReaders := mixedReport_isOver (by decide)
  have warnedOver : warned.IsOver twoReaders :=
    ⟨isOver.notCovered, isOver.changes, isOver.unaligned⟩
  have isOver' : (mixedReport "osx").IsOver twoReaders := mixedReport_isOver (by decide)
  have keeps := (ofReport_eq_iff named isOver warnedOver).2 apart rfl
  refine ⟨named, apart, isOver, warnedOver, isOver', rfl, keeps.1, fun same => ?_⟩
  have equal := ((ofReport_eq_iff named isOver isOver').2 apart same).1
  exact absurd equal (by decide)

def twoCores : Project where
  modules := [
    { group := "org.acme", artifact := "core", version := "1", isRoot := true
      properties := [("netty", "1.0")]
      declarations := [
        { coordinate := ⟨"io.netty", "netty-buffer", "jar", none⟩
          version := some "$\x7bnetty\x7d" }] },
    { group := "org.acme", artifact := "core", version := "2"
      properties := [("netty", "1.0")]
      declarations := [
        { coordinate := ⟨"io.netty", "netty-codec", "jar", none⟩
          version := some "$\x7bnetty\x7d" }] }]
  root := 0

def twoCoresText : String :=
  "[[modules]]
group_id = \"org.acme\"
artifact_id = \"core\"
version = \"1\"
execution_root = true
properties = \x7b netty = \"1.0\" \x7d
[[modules.dependencies]]
group_id = \"io.netty\"
artifact_id = \"netty-buffer\"
version = \"$\x7bnetty\x7d\"
[[modules]]
group_id = \"org.acme\"
artifact_id = \"core\"
version = \"2\"
properties = \x7b netty = \"1.0\" \x7d
[[modules.dependencies]]
group_id = \"io.netty\"
artifact_id = \"netty-codec\"
version = \"$\x7bnetty\x7d\"
"

def movedNetty (index : Nat) : Report where
  changes := ⟨[.setProperty index "netty" "2.0"]⟩

theorem movedNetty_isOver {p : Project} {index : Nat} (inside : (p.module? index).isSome) :
    (movedNetty index).IsOver p where
  notCovered := by simp [movedNetty]
  changes := by
    intro change member
    rw [List.mem_singleton.1 member]
    exact ⟨inside, by simp [Change.coordinate?], by simp [Change.exclusions]⟩
  unaligned := by simp [movedNetty]

set_option maxRecDepth 6000 in
theorem Plan.ofReport_merges_modules :
    (∃ d, Descriptor.ofText twoCoresText = .ok d ∧ d.project = twoCores) ∧
    twoCores.WellNamed ∧
    (∀ m ∈ twoCores.modules, ∀ d ∈ m.declarations, d.coordinate.WellFormed) ∧
    (movedNetty 0).IsOver twoCores ∧ (movedNetty 1).IsOver twoCores ∧
    (align twoCores (Manifest.serve { streams := [⟨"io.netty", "netty-buffer", "2.0"⟩,
      ⟨"io.netty", "netty-codec", "1.0"⟩] } .alone)
      { injectTransitiveDependencies := false }).1 = .ok (movedNetty 0) ∧
    (align twoCores (Manifest.serve { streams := [⟨"io.netty", "netty-buffer", "1.0"⟩,
      ⟨"io.netty", "netty-codec", "2.0"⟩] } .alone)
      { injectTransitiveDependencies := false }).1 = .ok (movedNetty 1) ∧
    ofReport (movedNetty 0) twoCores = ofReport (movedNetty 1) twoCores ∧
    (movedNetty 0).changes ≠ (movedNetty 1).changes := by
  refine ⟨?_, by unfold Project.WellNamed; decide, by decide, movedNetty_isOver rfl,
    movedNetty_isOver rfl, by decide +kernel, by decide +kernel, by decide, by decide⟩
  refine Descriptor.accepts_of_spelled twoCoresText (·.project) twoCores rfl ?_
  decide +kernel

end VersionAlignment
