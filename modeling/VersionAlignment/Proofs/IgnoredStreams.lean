import VersionAlignment.Proofs.CoordinateTexts

set_option autoImplicit false

namespace VersionAlignment

theorem trim_of_pairOfText? {s first second : String}
    (accepted : pairOfText? s = some (first, second)) : Text.trim s = first ++ ":" ++ second := by
  unfold pairOfText? at accepted
  split at accepted
  · next first' second' cut =>
    split at accepted
    · cases accepted
    · cases accepted
      rw [Text.pair_eq_joinWith, ← cut]
      exact (Text.joinWith_split ':' (Text.trim s)).symm
  · cases accepted

namespace StreamPattern

variable {p q : StreamPattern} {c : Coordinate} {entry : String}

theorem ofText?_eq_some : ofText? entry = some p ↔ p.Legible ∧ Text.trim entry = p.text := by
  constructor
  · intro accepted
    refine ⟨legible_of_ofText? accepted, ?_⟩
    obtain ⟨⟨group, artifact⟩, read, rfl⟩ := Option.map_eq_some_iff.1 accepted
    rw [trim_of_pairOfText? read]
    by_cases whole : artifact = "*" <;> simp [text, whole]
  · rintro ⟨legible, same⟩
    have trimmed : Text.trim p.text = p.text := by
      rw [text, Text.pair_eq_joinWith]
      exact legible.parts.trim_joinWith
    rw [← ofText?_text legible, ofText?, ofText?, pairOfText?, pairOfText?, same, trimmed]

def Fits (p : StreamPattern) (c : Coordinate) : Prop :=
  p.group = c.group ∧ (p.artifact = none ∨ p.artifact = some c.artifact)

def Finer (p q : StreamPattern) : Prop := p.artifact ≠ none ∧ q.artifact = none

theorem covers_iff : p.covers c.group c.artifact = true ↔ p.Fits c := by
  obtain ⟨group, _ | artifact⟩ := p <;> simp [covers, Fits]

theorem specificity_lt : q.specificity < p.specificity ↔ p.Finer q := by
  obtain ⟨_, _ | _⟩ := p <;> obtain ⟨_, _ | _⟩ := q <;> simp [specificity, Finer]

end StreamPattern

namespace Policy

def Lists (entries : List String) (p : StreamPattern) : Prop :=
  p.Legible ∧ ∃ entry ∈ entries, Text.trim entry = p.text

/-- One of the patterns fits, and no exempting one that fits is finer than all of those. -/
def Ignored (ignored unignored : StreamPattern → Prop) (c : Coordinate) : Prop :=
  (∃ p, ignored p ∧ p.Fits c) ∧
    ¬ ∃ q, unignored q ∧ q.Fits c ∧ ∀ p, ignored p → p.Fits c → q.Finer p

variable {ignored ignored' unignored unignored' : StreamPattern → Prop} {c : Coordinate}
  {p : StreamPattern} {entry : String} {entries entries' : List String}

theorem Ignored.mono (stays : Ignored ignored unignored c) (more : ∀ p, ignored p → ignored' p)
    (fewer : ∀ q, unignored' q → unignored q) : Ignored ignored' unignored' c := by
  obtain ⟨⟨p, listed, fits⟩, unexempted⟩ := stays
  refine ⟨⟨p, more p listed, fits⟩, ?_⟩
  rintro ⟨q, listed', fits', finer⟩
  exact unexempted ⟨q, fewer q listed', fits', fun p listed => finer p (more p listed)⟩

theorem toOption_readStream (entry : String) :
    (readStream entry).toOption = StreamPattern.ofText? entry := by
  rw [readStream]
  cases StreamPattern.ofText? entry <;> rfl

theorem mem_wellFormed_readStream : p ∈ wellFormed readStream entries ↔ Lists entries p := by
  simp only [wellFormed, List.mem_filterMap, toOption_readStream, StreamPattern.ofText?_eq_some,
    Lists]
  grind

theorem bestMatch?_eq_none {patterns : List StreamPattern} :
    bestMatch? patterns c = none ↔ ∀ p ∈ patterns, ¬ p.Fits c := by
  simp [bestMatch?, StreamPattern.covers_iff]

theorem bestMatch?_eq_some {patterns : List StreamPattern} {best : Nat} :
    bestMatch? patterns c = some best ↔
      (∃ p ∈ patterns, p.Fits c ∧ p.specificity = best) ∧
      ∀ p ∈ patterns, p.Fits c → p.specificity ≤ best := by
  rw [bestMatch?, List.max?_eq_some_iff, List.forall_mem_map]
  simp only [List.mem_map, List.mem_filter, StreamPattern.covers_iff, and_assoc, and_imp]

theorem ignoresStream_iff {policy : Policy} : policy.ignoresStream c = true ↔
    Ignored (· ∈ policy.ignoredStreams) (· ∈ policy.unignoredStreams) c := by
  simp only [Ignored, ← StreamPattern.specificity_lt]
  rw [ignoresStream]
  cases ignored : bestMatch? policy.ignoredStreams c with
  | none =>
    have unlisted := bestMatch?_eq_none.1 ignored
    simpa using fun p member fits => absurd fits (unlisted p member)
  | some best =>
    -- A pattern of the greatest specificity stands for all that fit.
    obtain ⟨⟨p, member, fits, rfl⟩, greatest⟩ := bestMatch?_eq_some.1 ignored
    cases unignored : bestMatch? policy.unignoredStreams c with
    | none =>
      have unlisted := bestMatch?_eq_none.1 unignored
      refine iff_of_true rfl ⟨⟨p, member, fits⟩, ?_⟩
      rintro ⟨q, member', fits', -⟩
      exact unlisted q member' fits'
    | some other =>
      obtain ⟨⟨q, member', fits', rfl⟩, greatest'⟩ := bestMatch?_eq_some.1 unignored
      rw [decide_eq_true_iff]
      constructor
      · intro below
        refine ⟨⟨p, member, fits⟩, ?_⟩
        rintro ⟨r, exempting, fitting, finer⟩
        have above := finer p member fits
        have limit := greatest' r exempting fitting
        omega
      · rintro ⟨-, unexempted⟩
        refine Nat.not_lt.1 fun above => unexempted ⟨q, member', fits', ?_⟩
        intro r listed fitting
        exact Nat.lt_of_le_of_lt (greatest r listed fitting) above

theorem ignoresStream_ofOptions {o : Options} : (ofOptions o).ignoresStream c = true ↔
    Ignored (Lists o.ignoreStreams) (Lists o.unignoreStreams) c := by
  rw [ignoresStream_iff]
  simp only [ofOptions, mem_wellFormed_readStream]

def Alike (entries entries' : List String) : Prop := ∀ p, Lists entries p ↔ Lists entries' p

theorem Alike.trans {third : List String} (alike : Alike entries entries')
    (alike' : Alike entries' third) : Alike entries third :=
  fun p => (alike p).trans (alike' p)

theorem Lists.mono (listed : Lists entries p) (more : entries ⊆ entries') : Lists entries' p := by
  obtain ⟨legible, entry, member, text⟩ := listed
  exact ⟨legible, entry, more member, text⟩

theorem alike_of_perm (perm : entries.Perm entries') : Alike entries entries' :=
  fun _ => ⟨fun listed => listed.mono perm.subset, fun listed => listed.mono perm.symm.subset⟩

theorem alike_again (member : entry ∈ entries) : Alike (entry :: entries) entries :=
  fun _ => ⟨fun listed => listed.mono (by simp [member]), fun listed => listed.mono (by simp)⟩

theorem alike_trim (same : entries.map Text.trim = entries'.map Text.trim) :
    Alike entries entries' := by
  intro p
  have texts : ∀ entries, Lists entries p ↔ p.Legible ∧ p.text ∈ entries.map Text.trim :=
    fun entries => and_congr_right fun _ => List.mem_map.symm
  rw [texts, texts, same]

theorem alike_malformed (malformed : StreamPattern.ofText? entry = none) :
    Alike (entry :: entries) entries := by
  intro p
  refine ⟨?_, fun listed => listed.mono (by simp)⟩
  rintro ⟨legible, other, member, text⟩
  rcases List.mem_cons.1 member with rfl | member
  · simp [StreamPattern.ofText?_eq_some.2 ⟨legible, text⟩] at malformed
  · exact ⟨legible, other, member, text⟩

/-- A stream is ignored if a well-formed entry fits it and no finer one exempts it. Other entries,
blanks around an entry, and the order and number of the entries do not matter. With more entries no
ignored stream is spared, and with more exempting ones no spared stream is ignored. -/
theorem ignoresStream_exact (o : Options) (c : Coordinate) :
    ((ofOptions o).ignoresStream c = true ↔
      (∃ p, Lists o.ignoreStreams p ∧ p.Fits c) ∧
      ¬ ∃ q, Lists o.unignoreStreams q ∧ q.Fits c ∧
        ∀ p, Lists o.ignoreStreams p → p.Fits c → q.Finer p) ∧
    (∀ other : Options, Alike other.ignoreStreams o.ignoreStreams →
      Alike other.unignoreStreams o.unignoreStreams →
      (ofOptions other).ignoresStream c = (ofOptions o).ignoresStream c) ∧
    (∀ more, o.ignoreStreams ⊆ more → (ofOptions o).ignoresStream c = true →
      (ofOptions { o with ignoreStreams := more }).ignoresStream c = true) ∧
    ∀ more, o.unignoreStreams ⊆ more → (ofOptions o).ignoresStream c = false →
      (ofOptions { o with unignoreStreams := more }).ignoresStream c = false := by
  refine ⟨ignoresStream_ofOptions, ?_, ?_, ?_⟩
  · intro other alike alike'
    rw [Bool.eq_iff_iff, ignoresStream_ofOptions, ignoresStream_ofOptions]
    constructor
    · exact fun stays => stays.mono (fun p => (alike p).1) fun q => (alike' q).2
    · exact fun stays => stays.mono (fun p => (alike p).2) fun q => (alike' q).1
  · intro more added
    rw [ignoresStream_ofOptions, ignoresStream_ofOptions]
    exact fun stays => stays.mono (fun p listed => listed.mono added) fun q => id
  · intro more added
    simp only [← Bool.not_eq_true, ignoresStream_ofOptions]
    exact mt fun stays => stays.mono (fun p => id) fun q listed => listed.mono added

theorem ignoresStream_exact_netty :
    let o : Options := { ignoreStreams := ["io.netty:*", "junit:junit"]
                         unignoreStreams := ["io.netty:netty-buffer", "junit:*"] }
    let other : Options :=
      { ignoreStreams := ["junit", " junit:junit", "io.netty:*\t", "junit:junit"]
        unignoreStreams := ["junit:*", "io.netty:netty-buffer"] }
    let buffer : Coordinate := ⟨"io.netty", "netty-buffer", "jar", none⟩
    let junit : Coordinate := ⟨"junit", "junit", "jar", none⟩
    Alike other.ignoreStreams o.ignoreStreams ∧ Alike other.unignoreStreams o.unignoreStreams ∧
      (ofOptions o).ignoresStream junit = true ∧ (ofOptions other).ignoresStream junit = true ∧
      (ofOptions { o with ignoreStreams := "junit:*" :: o.ignoreStreams }).ignoresStream junit =
        true ∧
      (ofOptions o).ignoresStream buffer = false ∧
      (ofOptions { o with unignoreStreams := "io.netty:*" :: o.unignoreStreams }).ignoresStream
        buffer = false := by
  intro o other buffer junit
  have trimmed : Alike [" junit:junit", "io.netty:*\t", "junit:junit"]
      ["junit:junit", "io.netty:*", "junit:junit"] := alike_trim (by decide +kernel)
  have single : Alike ["junit:junit", "io.netty:*", "junit:junit"] o.ignoreStreams :=
    alike_again (by decide)
  have alike : Alike other.ignoreStreams o.ignoreStreams :=
    (alike_malformed (by decide +kernel)).trans (trimmed.trans single)
  have alike' : Alike other.unignoreStreams o.unignoreStreams := alike_of_perm (.swap ..)
  have ignored : (ofOptions o).ignoresStream junit = true := by decide +kernel
  have exempted : (ofOptions o).ignoresStream buffer = false := by decide +kernel
  obtain ⟨-, same, more, -⟩ := ignoresStream_exact o junit
  obtain ⟨-, -, -, fewer⟩ := ignoresStream_exact o buffer
  exact ⟨alike, alike', ignored, (same other alike alike').trans ignored,
    more _ (List.subset_cons_self ..) ignored, exempted,
    fewer _ (List.subset_cons_self ..) exempted⟩

end Policy

end VersionAlignment
