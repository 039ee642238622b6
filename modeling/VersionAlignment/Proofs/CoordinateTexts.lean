import Mathlib.Tactic.MkIffOfInductiveProp
import VersionAlignment.Policy
import VersionAlignment.Proofs.SeparatedTexts
import VersionAlignment.ReadError
import VersionAlignment.Version.Spelling

set_option autoImplicit false

namespace VersionAlignment

open Version (StartsSolid EndsSolid)

@[mk_iff]
structure Text.IsPart (s : String) : Prop where
  nonempty : s ≠ ""
  flat : ':' ∉ s.toList

instance (s : String) : Decidable (Text.IsPart s) := decidable_of_iff' _ (Text.isPart_iff s)

namespace Text

structure Legible (parts : List String) : Prop where
  some : parts ≠ []
  each : ∀ part ∈ parts, IsPart part
  starts : ∀ part ∈ parts.head?, StartsSolid part
  ends : ∀ part ∈ parts.getLast?, EndsSolid part

variable {s : String} {parts : List String}

theorem Legible.trim_joinWith (legible : Legible parts) :
    trim (joinWith ":" parts) = joinWith ":" parts := by
  have chars : (joinWith ":" parts).toList = [':'].intercalate (parts.map String.toList) :=
    toList_joinWith ':' parts
  rw [← String.toList_inj, toList_trim, chars]
  refine trimChars_eq_self ?_ ?_
  · obtain ⟨first, rest, rfl⟩ := List.exists_cons_of_ne_nil legible.some
    have nonempty := (legible.each first List.mem_cons_self).nonempty
    rw [List.map_cons, head?_intercalate (by simpa using nonempty)]
    exact legible.starts first rfl
  · obtain ⟨front, last, rfl⟩ := (List.eq_nil_or_concat parts).resolve_left legible.some
    have nonempty := (legible.each last (by simp)).nonempty
    rw [List.concat_eq_append, List.map_append, List.map_singleton,
      getLast?_intercalate (by simpa using nonempty)]
    exact legible.ends last (by simp)

theorem Legible.split_trim (legible : Legible parts) :
    split ':' (trim (joinWith ":" parts)) = parts := by
  rw [legible.trim_joinWith]
  exact split_joinWith legible.some fun part member => (legible.each part member).flat

theorem legible_split_trim (nonempty : "" ∉ split ':' (trim s)) :
    Legible (split ':' (trim s)) := by
  have chars : [':'].intercalate ((split ':' (trim s)).map String.toList) = trimChars s.toList :=
    calc [':'].intercalate ((split ':' (trim s)).map String.toList)
        = (joinWith ":" (split ':' (trim s))).toList := (toList_joinWith ':' _).symm
      _ = (trim s).toList := congrArg String.toList (joinWith_split ':' (trim s))
      _ = trimChars s.toList := toList_trim s
  have some := split_ne_nil ':' (trim s)
  have solid : ∀ part ∈ split ':' (trim s), part.toList ≠ [] := by
    rintro part member empty
    rw [String.toList_eq_nil_iff] at empty
    exact nonempty (empty ▸ member)
  refine ⟨some, fun part member => ⟨fun empty => nonempty (empty ▸ member), ?_⟩, ?_, ?_⟩
  · obtain ⟨piece, inside, rfl⟩ := List.mem_map.1 member
    rw [String.toList_ofList]
    exact fun colon => (mem_of_mem_splitChars inside colon).2 rfl
  · generalize split ':' (trim s) = parts at chars some solid
    obtain ⟨first, rest, rfl⟩ := List.exists_cons_of_ne_nil some
    rintro _ ⟨⟩ c begins
    rw [List.map_cons] at chars
    rw [← head?_intercalate (solid first List.mem_cons_self), chars] at begins
    exact isBlank_of_head?_trimChars begins
  · generalize split ':' (trim s) = parts at chars some solid
    obtain ⟨front, last, rfl⟩ := (List.eq_nil_or_concat parts).resolve_left some
    intro part here c ending
    obtain rfl : last = part := by simpa using here
    rw [List.concat_eq_append, List.map_append, List.map_singleton] at chars
    rw [← getLast?_intercalate (solid last (by simp)), chars] at ending
    exact isBlank_of_getLast?_trimChars ending

theorem pair_eq_joinWith (first second : String) :
    first ++ ":" ++ second = joinWith ":" [first, second] := by
  simp [joinWith, String.append_assoc]

theorem legible_pair {first second : String} : Legible [first, second] ↔
    IsPart first ∧ IsPart second ∧ StartsSolid first ∧ EndsSolid second := by
  constructor
  · intro legible
    exact ⟨legible.each first (by simp), legible.each second (by simp), legible.starts first rfl,
      legible.ends second rfl⟩
  · rintro ⟨part, part', starts, ends⟩
    refine ⟨by simp, by simp [part, part'], ?_, ?_⟩
    · rintro _ ⟨⟩
      exact starts
    · rintro _ ⟨⟩
      exact ends

end Text

open Text (IsPart Legible)

namespace Coordinate

@[mk_iff]
structure WellFormed (c : Coordinate) : Prop where
  group : IsPart c.group
  artifact : IsPart c.artifact
  kind : IsPart c.kind
  classifier : ∀ classifier ∈ c.classifier, IsPart classifier

instance (c : Coordinate) : Decidable c.WellFormed := decidable_of_iff' _ (wellFormed_iff c)

def parts (c : Coordinate) : List String :=
  match c.classifier with
  | some classifier => [c.group, c.artifact, c.kind, classifier]
  | none => if c.kind = "jar" then [c.group, c.artifact] else [c.group, c.artifact, c.kind]

theorem text_eq (c : Coordinate) : c.text = Text.joinWith ":" c.parts := by
  obtain ⟨group, artifact, kind, _ | classifier⟩ := c
  · by_cases usual : kind = "jar" <;> simp [text, parts, usual, Text.joinWith, String.append_assoc]
  · simp [text, parts, Text.joinWith, String.append_assoc]

theorem WellFormed.isPart {c : Coordinate} (wellFormed : c.WellFormed) :
    ∀ part ∈ c.parts, IsPart part := by
  obtain ⟨group, artifact, kind, classifier⟩ := wellFormed
  obtain ⟨_, _, named, _ | word⟩ := c
  · by_cases usual : named = "jar" <;> simp_all [parts]
  · simp_all [parts]

theorem parts_ne_nil (c : Coordinate) : c.parts ≠ [] := by
  obtain ⟨_, _, kind, _ | classifier⟩ := c
  · by_cases usual : kind = "jar" <;> simp [parts, usual]
  · simp [parts]

theorem head?_parts (c : Coordinate) : c.parts.head? = some c.group := by
  obtain ⟨_, _, kind, _ | classifier⟩ := c
  · by_cases usual : kind = "jar" <;> simp [parts, usual]
  · simp [parts]

end Coordinate

namespace Artifact

structure Legible (a : Artifact) : Prop where
  coordinate : a.coordinate.WellFormed
  version : IsPart a.version
  starts : StartsSolid a.coordinate.group
  ends : EndsSolid a.version

def parts (a : Artifact) : List String := a.coordinate.parts ++ [a.version]

theorem text_eq (a : Artifact) : a.text = Text.joinWith ":" a.parts := by
  obtain ⟨⟨group, artifact, kind, _ | classifier⟩, version⟩ := a
  · by_cases usual : kind = "jar" <;>
      simp [text, parts, Coordinate.text, Coordinate.parts, usual, Text.joinWith, String.append_assoc]
  · simp [text, parts, Coordinate.text, Coordinate.parts, Text.joinWith, String.append_assoc]

theorem Legible.parts {a : Artifact} (legible : a.Legible) : Text.Legible a.parts := by
  refine ⟨by simp [Artifact.parts], ?_, ?_, ?_⟩
  · intro part member
    rcases List.mem_append.1 member with inside | last
    · exact legible.coordinate.isPart part inside
    · exact List.mem_singleton.1 last ▸ legible.version
  · rw [Artifact.parts, List.head?_append, Coordinate.head?_parts]
    rintro _ ⟨⟩
    exact legible.starts
  · simpa [Artifact.parts] using legible.ends

theorem ofText?_text {a : Artifact} (legible : a.Legible) : ofText? a.text = some a := by
  have cut := legible.parts.split_trim
  have nonempty : "" ∉ a.parts := fun empty => (legible.parts.each "" empty).nonempty rfl
  rw [← text_eq] at cut
  rw [ofText?, cut]
  obtain ⟨⟨group, artifact, kind, _ | classifier⟩, version⟩ := a
  · by_cases usual : kind = "jar" <;> simp_all [parts, Coordinate.parts]
  · simp_all [parts, Coordinate.parts]

theorem legible_of_ofText? {s : String} {a : Artifact} (accepted : ofText? s = some a) :
    a.Legible := by
  unfold ofText? at accepted
  dsimp only at accepted
  split at accepted
  · cases accepted
  · next solid =>
    have legible := Text.legible_split_trim (s := s) (by simpa using solid)
    split at accepted
    · next group artifact version cut =>
      cases accepted
      rw [cut] at legible
      have usual : IsPart "jar" := by decide
      exact ⟨⟨legible.each group (by simp), legible.each artifact (by simp),
        usual, by simp⟩, legible.each version (by simp), legible.starts group rfl,
        legible.ends version rfl⟩
    · next group artifact kind version cut =>
      cases accepted
      rw [cut] at legible
      exact ⟨⟨legible.each group (by simp), legible.each artifact (by simp),
        legible.each kind (by simp), by simp⟩, legible.each version (by simp),
        legible.starts group rfl, legible.ends version rfl⟩
    · next group artifact kind classifier version cut =>
      cases accepted
      rw [cut] at legible
      exact ⟨⟨legible.each group (by simp), legible.each artifact (by simp),
        legible.each kind (by simp), fun word own => legible.each word (by simp_all)⟩,
        legible.each version (by simp), legible.starts group rfl, legible.ends version rfl⟩
    · cases accepted

end Artifact

section

variable {s first second : String}

theorem pairOfText?_text (legible : Legible [first, second]) :
    pairOfText? (first ++ ":" ++ second) = some (first, second) := by
  obtain ⟨part, part', -, -⟩ := Text.legible_pair.1 legible
  simp [pairOfText?, Text.pair_eq_joinWith, legible.split_trim, part.nonempty, part'.nonempty]

theorem legible_of_pairOfText? (accepted : pairOfText? s = some (first, second)) :
    Legible [first, second] := by
  unfold pairOfText? at accepted
  split at accepted
  · next first' second' cut =>
    split at accepted
    · cases accepted
    · next solid =>
      cases accepted
      rw [not_or] at solid
      rw [← cut]
      refine Text.legible_split_trim ?_
      rw [cut]
      simp [Ne.symm solid.1, Ne.symm solid.2]
  · cases accepted

end

namespace Exclusion

structure WellFormed (e : Exclusion) : Prop where
  group : IsPart e.group
  artifact : IsPart e.artifact

structure Legible (e : Exclusion) : Prop where
  wellFormed : e.WellFormed
  starts : StartsSolid e.group
  ends : EndsSolid e.artifact

variable {e : Exclusion}

theorem legible_iff : e.Legible ↔ Text.Legible [e.group, e.artifact] := by
  rw [Text.legible_pair]
  constructor
  · rintro ⟨⟨group, artifact⟩, starts, ends⟩
    exact ⟨group, artifact, starts, ends⟩
  · rintro ⟨group, artifact, starts, ends⟩
    exact ⟨⟨group, artifact⟩, starts, ends⟩

theorem ofText?_text (legible : e.Legible) : ofText? e.text = some e := by
  rw [ofText?, text, pairOfText?_text (legible_iff.1 legible)]
  rfl

theorem legible_of_ofText? {s : String} (accepted : ofText? s = some e) : e.Legible := by
  obtain ⟨pair, read, rfl⟩ := Option.map_eq_some_iff.1 accepted
  exact legible_iff.2 (legible_of_pairOfText? read)

end Exclusion

namespace StreamPattern

structure Legible (p : StreamPattern) : Prop where
  group : IsPart p.group
  artifact : ∀ artifact ∈ p.artifact, IsPart artifact
  starts : StartsSolid p.group
  ends : ∀ artifact ∈ p.artifact, EndsSolid artifact
  -- This text means a pattern without an artifact.
  named : p.artifact ≠ some "*"

variable {p : StreamPattern}

theorem Legible.parts (legible : p.Legible) : Text.Legible [p.group, p.artifact.getD "*"] := by
  rw [Text.legible_pair]
  obtain ⟨group, artifact, starts, ends, -⟩ := legible
  cases named : p.artifact with
  | none => exact ⟨group, ⟨by decide, by decide⟩, starts, by simp [EndsSolid]; decide⟩
  | some word => exact ⟨group, artifact word named, starts, ends word named⟩

theorem ofText?_text (legible : p.Legible) : ofText? p.text = some p := by
  rw [ofText?, text, pairOfText?_text legible.parts]
  obtain ⟨group, _ | artifact⟩ := p
  · rfl
  · have other : artifact ≠ "*" := fun same => legible.named (same ▸ rfl)
    simp [other]

theorem legible_of_ofText? {s : String} (accepted : ofText? s = some p) : p.Legible := by
  obtain ⟨⟨group, artifact⟩, read, rfl⟩ := Option.map_eq_some_iff.1 accepted
  obtain ⟨part, part', starts, ends⟩ := Text.legible_pair.1 (legible_of_pairOfText? read)
  by_cases whole : artifact = "*"
  · exact ⟨part, by simp [whole], starts, by simp [whole], by simp [whole]⟩
  · exact ⟨part, by simpa [whole] using part', starts, by simpa [whole] using ends,
      by simp [whole]⟩

end StreamPattern

/-- Legible values are read from their texts. Nothing else is read from any text, so what is read is
read from its own text again. -/
structure ReadsBack {α ε : Type} (read : String → Except ε α) (text : α → String)
    (Legible : α → Prop) : Prop where
  back : ∀ a, Legible a → read (text a) = .ok a
  legible : ∀ s a, read s = .ok a → Legible a
  again : ∀ s a, read s = .ok a → read (text a) = .ok a

theorem ReadsBack.of_legible {α ε : Type} {read : String → Except ε α} {text : α → String}
    {Legible : α → Prop} (back : ∀ a, Legible a → read (text a) = .ok a)
    (legible : ∀ s a, read s = .ok a → Legible a) : ReadsBack read text Legible :=
  ⟨back, legible, fun s a accepted => back a (legible s a accepted)⟩

theorem Artifact.ofText_eq_ok {s : String} {a : Artifact} :
    ofText s = .ok a ↔ ofText? s = some a := by
  rw [ofText]
  cases ofText? s <;> simp

theorem Exclusion.ofText_eq_ok {s : String} {e : Exclusion} :
    ofText s = .ok e ↔ ofText? s = some e := by
  rw [ofText]
  cases ofText? s <;> simp

theorem Policy.readStream_eq_ok {s : String} {p : StreamPattern} :
    readStream s = .ok p ↔ StreamPattern.ofText? s = some p := by
  rw [readStream]
  cases StreamPattern.ofText? s <;> simp

theorem readsBack_texts :
    ReadsBack Artifact.ofText Artifact.text Artifact.Legible ∧
    ReadsBack Exclusion.ofText Exclusion.text Exclusion.Legible ∧
    ReadsBack Policy.readStream StreamPattern.text StreamPattern.Legible := by
  refine ⟨.of_legible ?_ ?_, .of_legible ?_ ?_, .of_legible ?_ ?_⟩
  · exact fun a legible => Artifact.ofText_eq_ok.2 (Artifact.ofText?_text legible)
  · exact fun s a accepted => Artifact.legible_of_ofText? (Artifact.ofText_eq_ok.1 accepted)
  · exact fun e legible => Exclusion.ofText_eq_ok.2 (Exclusion.ofText?_text legible)
  · exact fun s e accepted => Exclusion.legible_of_ofText? (Exclusion.ofText_eq_ok.1 accepted)
  · exact fun p legible => Policy.readStream_eq_ok.2 (StreamPattern.ofText?_text legible)
  · exact fun s p accepted =>
      StreamPattern.legible_of_ofText? (Policy.readStream_eq_ok.1 accepted)

theorem readsBack_texts_netty :
    let native : Artifact := ⟨⟨"io.netty", "netty all", "jar", some "linux"⟩, "4.1"⟩
    let plain : Artifact := ⟨⟨"io.netty", "netty all", "jar", none⟩, "4.1"⟩
    native.Legible ∧ native.text = "io.netty:netty all:jar:linux:4.1" ∧
      Artifact.ofText native.text = .ok native ∧
      Artifact.ofText " io.netty:netty all:jar:4.1" = .ok plain ∧
      plain.text = "io.netty:netty all:4.1" ∧ Artifact.ofText plain.text = .ok plain := by
  intro native plain
  obtain ⟨artifacts, -, -⟩ := readsBack_texts
  have legible : native.Legible :=
    { coordinate := by decide
      version := by decide
      starts := by simp [StartsSolid, native]; decide
      ends := by simp [EndsSolid, native]; decide }
  have accepted : Artifact.ofText " io.netty:netty all:jar:4.1" = .ok plain :=
    Artifact.ofText_eq_ok.2 (by decide +kernel)
  exact ⟨legible, by decide, artifacts.back native legible, accepted, by decide,
    artifacts.again _ plain accepted⟩

end VersionAlignment
