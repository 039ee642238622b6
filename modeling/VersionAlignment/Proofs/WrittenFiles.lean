import VersionAlignment.Disk.Tree
import VersionAlignment.Proofs.JoinedPaths

set_option autoImplicit false

namespace VersionAlignment

def Location.place : Location → FileTree.Place
  | .found place _ => place
  | .free place => place

namespace FileTree

variable {tree : FileTree} {place other current start : Place} {node : TreeNode} {bytes : ByteArray}
  {pieces : List String} {l : Location} {p : Path}

theorem lookup_cons_of_ne (entries : List (Place × TreeNode)) (apart : other ≠ place) :
    ((place, node) :: entries).lookup other = entries.lookup other := by
  rw [List.lookup_cons, beq_false_of_ne apart]

theorem lookup_filter_ne (entries : List (Place × TreeNode)) (apart : other ≠ place) :
    (entries.filter fun entry => entry.1 != place).lookup other = entries.lookup other := by
  induction entries with
  | nil => rfl
  | cons entry entries ih =>
    obtain ⟨here, node⟩ := entry
    by_cases same : here = place
    · rw [List.filter_cons_of_neg (by simp [same]), ih, lookup_cons_of_ne entries (same ▸ apart)]
    · rw [List.filter_cons_of_pos (by simp [same]), List.lookup_cons, List.lookup_cons, ih]

theorem node?_put_self (below : place ≠ []) : (tree.put place node).node? place = some node := by
  simp [node?, put, below]

theorem node?_put_of_ne (apart : other ≠ place) :
    (tree.put place node).node? other = tree.node? other := by
  rw [node?, put, lookup_cons_of_ne _ apart, lookup_filter_ne _ apart, node?]

theorem isSome_node?_put (below : place ≠ []) (used : (tree.node? other).isSome = true) :
    ((tree.put place node).node? other).isSome = true := by
  by_cases same : other = place
  · rw [same, node?_put_self below]
    rfl
  · rwa [node?_put_of_ne same]

theorem node?_remove (tree : FileTree) (place other : Place) : (tree.remove place).node? other =
    if other ≠ [] ∧ place <+: other then none else tree.node? other := by
  by_cases root : other = []
  · simp [root, node?]
  · simp only [node?, remove, List.isEmpty_iff, root, if_false, ne_eq, not_false_eq_true, true_and]
    induction tree.entries with
    | nil => simp
    | cons entry entries ih =>
      obtain ⟨here, found⟩ := entry
      by_cases below : place <+: here
      · rw [List.filter_cons_of_neg (by simpa using below), ih]
        by_cases same : other = here
        · simp [same, below]
        · rw [lookup_cons_of_ne _ same]
      · rw [List.filter_cons_of_pos (by simpa [← List.isPrefixOf_iff_prefix] using below),
          List.lookup_cons, List.lookup_cons, ih]
        by_cases same : other = here
        · simp [same, below]
        · simp [beq_false_of_ne same]

theorem isPrefix_take_succ {count : Nat} (within : count < place.length) :
    other <+: place.take (count + 1) ↔
      other = place.take (count + 1) ∨ other <+: place.take count := by
  rw [List.take_succ_eq_append_getElem within, List.prefix_concat_iff]

theorem node?_makeDirectories (tree : FileTree) (place other : Place) :
    (tree.makeDirectories place).node? other =
      (tree.node? other).or (if other <+: place then some .directory else none) := by
  have made (count : Nat) (fits : count ≤ place.length) (other : Place) :
      ((List.range count).foldl (fun tree count =>
        let above := place.take (count + 1)
        if (tree.node? above).isSome then tree else tree.put above .directory) tree).node? other =
        (tree.node? other).or (if other <+: place.take count then some .directory else none) := by
    induction count generalizing other with
    | zero =>
      cases other with
      | nil => rfl
      | cons name rest => simp
    | succ count ih =>
      have ih := ih (by omega)
      rw [List.range_succ, List.foldl_append, List.foldl_cons, List.foldl_nil]
      generalize (List.range count).foldl _ tree = before at ih ⊢
      dsimp only
      have new : ¬ place.take (count + 1) <+: place.take count := fun longer => by
        have := longer.length_le
        simp at this
        omega
      have below : place.take (count + 1) ≠ [] := fun none => new (by simp [none])
      simp only [isPrefix_take_succ fits]
      by_cases same : other = place.take (count + 1)
      · subst same
        have here := ih (place.take (count + 1))
        rw [if_neg new, Option.or_none] at here
        simp only [here, true_or, if_true]
        cases used : tree.node? (place.take (count + 1)) with
        | none => simpa using node?_put_self below
        | some node => simpa [used] using here
      · simp only [same, false_or]
        split
        · exact ih other
        · rw [node?_put_of_ne same, ih other]
  have all := made place.length (Nat.le_refl _) other
  rwa [List.take_length] at all
theorem ne_nil_of_hasDirectory (file : tree.hasDirectory place = false) : place ≠ [] := by
  rintro rfl
  cases file

theorem hasDirectory_put_file (file : tree.hasDirectory place = false) (other : Place) :
    (tree.put place (.file bytes)).hasDirectory other = tree.hasDirectory other := by
  by_cases same : other = place
  · rw [same, file, hasDirectory, node?_put_self (ne_nil_of_hasDirectory file)]
    rfl
  · rw [hasDirectory, node?_put_of_ne same, hasDirectory]

theorem follow_of_not_hasDirectory (file : tree.hasDirectory place = false)
    (nonempty : pieces ≠ []) :
    tree.follow place pieces = .error .notDirectory := by
  obtain ⟨piece, rest, rfl⟩ := List.exists_cons_of_ne_nil nonempty
  simp [follow, file]

def filled (place : Place) (bytes : ByteArray) (l : Location) : Location :=
  if l.place = place then .found place (.file bytes) else l

theorem follow_put_ok (bytes : ByteArray) (file : tree.hasDirectory place = false)
    (leads : tree.follow start pieces = .ok l) :
    (tree.put place (.file bytes)).follow start pieces = .ok (filled place bytes l) := by
  have below := ne_nil_of_hasDirectory file
  -- Every step on the way goes through directories, of which there are the same as before.
  fun_induction follow tree start pieces with
  | case1 start node here =>
    cases leads
    by_cases same : start = place
    · subst same
      simp [follow, node?_put_self below, filled, Location.place]
    · simp [follow, node?_put_of_ne same, here, filled, Location.place, same]
  | case4 start piece rest directory idle ih =>
    rw [follow, hasDirectory_put_file file, if_neg directory, if_pos idle, ih leads]
  | case5 start rest directory idle ih =>
    rw [follow, hasDirectory_put_file file, if_neg directory, if_neg idle, if_pos rfl, ih leads]
  | case7 start piece rest directory idle up short next used ih =>
    rw [follow, hasDirectory_put_file file, if_neg directory, if_neg idle, if_neg up, if_neg short,
      if_pos (isSome_node?_put below used), ih leads]
  | case8 start piece rest directory idle up short next none last =>
    cases leads
    rw [follow, hasDirectory_put_file file, if_neg directory, if_neg idle, if_neg up, if_neg short]
    -- The last name is missing no more if it is that of the new file.
    by_cases same : start ++ [piece] = place
    · have there : (tree.put place (.file bytes)).node? place = some (.file bytes) :=
        node?_put_self below
      rw [List.isEmpty_iff.1 last]
      simp [follow, next, same, there, filled, Location.place]
    · rw [if_neg (by rwa [node?_put_of_ne same]), if_pos last]
      simp [filled, Location.place, next, same]
  | case2 | case3 | case6 | case9 => cases leads

theorem follow_put_error (bytes : ByteArray) (file : tree.hasDirectory place = false)
    {e : DiskError} (fails : tree.follow start pieces = .error e) :
    (∃ e', (tree.put place (.file bytes)).follow start pieces = .error e') ∨
      (tree.put place (.file bytes)).follow start pieces = .ok (.found place (.file bytes)) := by
  have below := ne_nil_of_hasDirectory file
  fun_induction follow tree start pieces with
  | case2 start none =>
    by_cases same : start = place
    · exact .inr (by simp [follow, same, node?_put_self below])
    · exact .inl ⟨.notFound, by simp [follow, node?_put_of_ne same, none]⟩
  | case3 start piece rest directory =>
    exact .inl ⟨.notDirectory, by rw [follow, hasDirectory_put_file file, if_pos directory]⟩
  | case4 start piece rest directory idle ih =>
    rw [follow, hasDirectory_put_file file, if_neg directory, if_pos idle]
    exact ih fails
  | case5 start rest directory idle ih =>
    rw [follow, hasDirectory_put_file file, if_neg directory, if_neg idle, if_pos rfl]
    exact ih fails
  | case6 start piece rest directory idle up long =>
    refine .inl ⟨.nameTooLong, ?_⟩
    rw [follow, hasDirectory_put_file file, if_neg directory, if_neg idle, if_neg up, if_pos long]
  | case7 start piece rest directory idle up short next used ih =>
    rw [follow, hasDirectory_put_file file, if_neg directory, if_neg idle, if_neg up, if_neg short,
      if_pos (isSome_node?_put below used)]
    exact ih fails
  | case9 start piece rest directory idle up short next none more =>
    rw [follow, hasDirectory_put_file file, if_neg directory, if_neg idle, if_neg up, if_neg short]
    by_cases same : start ++ [piece] = place
    · have still : (tree.put place (.file bytes)).hasDirectory place = false := by
        rw [hasDirectory_put_file file, file]
      refine .inl ⟨.notDirectory, ?_⟩
      rw [if_pos (by rw [same, node?_put_self below]; rfl), same]
      exact follow_of_not_hasDirectory still (mt List.isEmpty_iff.2 more)
    · exact .inl ⟨.notFound, by rw [if_neg (by rwa [node?_put_of_ne same]), if_neg more]⟩
  | case1 | case8 => cases fails

theorem node?_of_follow_found (leads : tree.follow start pieces = .ok (.found place node)) :
    tree.node? place = some node := by
  fun_induction follow tree start pieces with
  | case1 start node here =>
    cases leads
    exact here
  | case4 | case5 | case7 => simp_all
  | case2 | case3 | case6 | case8 | case9 => cases leads

theorem node?_of_follow_free (leads : tree.follow start pieces = .ok (.free place)) :
    tree.node? place = none := by
  fun_induction follow tree start pieces with
  | case8 start piece rest directory idle up short next none last =>
    rw [← Location.free.inj (Except.ok.inj leads)]
    simpa using none
  | case4 | case5 | case7 => simp_all
  | case1 | case2 | case3 | case6 | case9 => cases leads

theorem isName_of_follow (named : ∀ name ∈ start, Path.IsName name)
    (flat : ∀ piece ∈ pieces, '/' ∉ piece.toList) (leads : tree.follow start pieces = .ok l) :
    ∀ name ∈ l.place, Path.IsName name := by
  have isName {start : Place} {piece : String} (named : ∀ name ∈ start, Path.IsName name)
      (flat : '/' ∉ piece.toList) (idle : ¬Path.isIdle piece = true) (up : piece ≠ "..") :
      ∀ name ∈ start ++ [piece], Path.IsName name := by
    intro name member
    rcases List.mem_append.1 member with above | last
    · exact named name above
    · simp only [Path.isIdle, Bool.or_eq_true, beq_iff_eq, not_or] at idle
      rw [List.mem_singleton.1 last]
      exact ⟨idle.1, idle.2, up, flat⟩
  fun_induction follow tree start pieces with
  | case1 start node here =>
    cases leads
    exact named
  | case4 start piece rest directory idle ih =>
    exact ih named (List.forall_mem_cons.1 flat).2 leads
  | case5 start rest directory idle ih =>
    exact ih (fun name member => named name (List.dropLast_subset _ member))
      (List.forall_mem_cons.1 flat).2 leads
  | case7 start piece rest directory idle up short next used ih =>
    obtain ⟨first, flat⟩ := List.forall_mem_cons.1 flat
    exact ih (isName named first idle up) flat leads
  | case8 start piece rest directory idle up short next none last =>
    cases leads
    exact isName named (List.forall_mem_cons.1 flat).1 idle up
  | case2 | case3 | case6 | case9 => cases leads

def origin (current : Place) (p : Path) : Place :=
  if Path.startsAtRoot p.text then [] else current

theorem locate_cases (current : Place) (p : Path) (pieces : List String) :
    (∃ e, ∀ tree : FileTree, tree.locate current p pieces = .error e) ∨
      p.text ≠ "" ∧ ∀ tree : FileTree,
        tree.locate current p pieces = tree.follow (origin current p) pieces := by
  by_cases empty : p.text = ""
  · exact .inl ⟨.notFound, fun tree => by rw [locate, if_pos empty]⟩
  by_cases null : p.text.toList.contains '\x00' = true
  · exact .inl ⟨.nullCharacter, fun tree => by rw [locate, if_neg empty, if_pos null]⟩
  by_cases long : pathSizeLimit ≤ p.text.utf8ByteSize
  · exact .inl ⟨.nameTooLong, fun tree => by rw [locate, if_neg empty, if_neg null, if_pos long]⟩
  · refine .inr ⟨empty, fun tree => ?_⟩
    rw [locate, if_neg empty, if_neg null, if_neg long, origin]

theorem follow_of_locate (leads : tree.locate current p pieces = .ok l) :
    p.text ≠ "" ∧ tree.follow (origin current p) pieces = .ok l := by
  rcases locate_cases current p pieces with ⟨e, refused⟩ | ⟨used, follows⟩
  · rw [refused] at leads
    cases leads
  · exact ⟨used, follows tree ▸ leads⟩

theorem locate_put_ok (bytes : ByteArray) (file : tree.hasDirectory place = false)
    (leads : tree.locate current p pieces = .ok l) :
    (tree.put place (.file bytes)).locate current p pieces = .ok (filled place bytes l) := by
  rcases locate_cases current p pieces with ⟨e, refused⟩ | ⟨-, follows⟩
  · rw [refused] at leads
    cases leads
  · rw [follows] at leads ⊢
    exact follow_put_ok bytes file leads

def place? (tree : FileTree) (current : Place) (p : Path) : Option Place :=
  (tree.locate current p (FileTree.pieces p)).toOption.map Location.place

theorem place?_eq_some : tree.place? current p = some place ↔
    ∃ l, tree.locate current p (FileTree.pieces p) = .ok l ∧ l.place = place := by
  rw [place?]
  cases tree.locate current p (FileTree.pieces p) with
  | error e => simp [Except.toOption]
  | ok l => simp [Except.toOption]

theorem isName_of_place? (named : ∀ name ∈ current, Path.IsName name)
    (leads : tree.place? current p = some place) : ∀ name ∈ place, Path.IsName name := by
  obtain ⟨l, located, rfl⟩ := place?_eq_some.1 leads
  refine isName_of_follow (fun name member => ?_) (fun piece member => ?_)
    (follow_of_locate located).2
  · rw [origin] at member
    split at member
    · cases member
    · exact named name member
  · obtain ⟨chars, inside, rfl⟩ := List.mem_map.1 member
    rw [String.toList_ofList]
    exact fun slash => (Text.mem_of_mem_splitChars inside slash).2 rfl

theorem locate_put_of_apart (file : tree.hasDirectory place = false)
    (apart : (tree.put place (.file bytes)).place? current p ≠ some place) :
    (tree.put place (.file bytes)).locate current p (FileTree.pieces p) =
        tree.locate current p (FileTree.pieces p) ∨
      ∃ e e', tree.locate current p (FileTree.pieces p) = .error e ∧
        (tree.put place (.file bytes)).locate current p (FileTree.pieces p) = .error e' := by
  rcases locate_cases current p (FileTree.pieces p) with ⟨e, refused⟩ | ⟨-, follows⟩
  · exact .inl (by rw [refused, refused])
  cases leads : tree.locate current p (FileTree.pieces p) with
  | ok l =>
    have moved := locate_put_ok bytes file leads
    by_cases same : l.place = place
    · rw [place?, moved, filled, if_pos same] at apart
      exact absurd rfl apart
    · rw [filled, if_neg same] at moved
      exact .inl moved
  | error e =>
    rw [follows] at leads
    rcases follow_put_error bytes file leads with ⟨e', fails⟩ | found
    · exact .inr ⟨e, e', rfl, by rw [follows, fails]⟩
    · rw [place?, follows, found] at apart
      exact absurd rfl apart

theorem kind_put_of_apart (file : tree.hasDirectory place = false)
    (apart : (tree.put place (.file bytes)).place? current p ≠ some place) :
    (tree.put place (.file bytes)).kind current p = tree.kind current p := by
  rcases locate_put_of_apart file apart with same | ⟨e, e', fails, fails'⟩
  · rw [kind, same, kind]
  · rw [kind, fails', kind, fails]

theorem kind_ne_directory (file : tree.hasDirectory place = false)
    (leads : tree.locate current p (FileTree.pieces p) = .ok l) (same : l.place = place) :
    tree.kind current p ≠ some .directory := by
  rw [kind, leads]
  cases l with
  | free => simp
  | found other node =>
    obtain rfl : other = place := same
    rw [hasDirectory, node?_of_follow_found (follow_of_locate leads).2] at file
    cases node with
    | file => simp [TreeNode.kind]
    | directory => cases file

theorem kind_put_directory (bytes : ByteArray) (file : tree.hasDirectory place = false)
    (current : Place) (p : Path) :
    (tree.put place (.file bytes)).kind current p = some .directory ↔
      tree.kind current p = some .directory := by
  by_cases same : (tree.put place (.file bytes)).place? current p = some place
  · have new : (tree.put place (.file bytes)).hasDirectory place = false := by
      rw [hasDirectory_put_file file, file]
    obtain ⟨l, leads, there⟩ := place?_eq_some.1 same
    refine iff_of_false (kind_ne_directory new leads there) fun directory => ?_
    cases before : tree.locate current p (FileTree.pieces p) with
    | error e =>
      rw [kind, before] at directory
      cases directory
    | ok l' =>
      have moved := locate_put_ok bytes file before
      by_cases same' : l'.place = place
      · exact kind_ne_directory file before same' directory
      · rw [filled, if_neg same', leads] at moved
        exact same' (Except.ok.inj moved ▸ there)
  · rw [kind_put_of_apart file same]

theorem read_put_of_apart (file : tree.hasDirectory place = false)
    (apart : (tree.put place (.file bytes)).place? current p ≠ some place) {found : ByteArray}
    (reads : tree.read current p = .ok found) :
    (tree.put place (.file bytes)).read current p = .ok found := by
  rcases locate_put_of_apart file apart with same | ⟨e, e', fails, fails'⟩
  · rwa [read, same, ← read]
  · rw [read, fails] at reads
    cases reads

theorem namedPieces_eq (used : p.text ≠ "") (ends : p.text.toList.getLast? ≠ some '/') :
    namedPieces p = FileTree.pieces p := by
  have named : (FileTree.pieces p).getLast? ≠ some "" := by
    have := Text.getLast?_splitChars_ne (by simpa using used) ends
    simpa [FileTree.pieces, Text.split] using this
  obtain ⟨front, last, split⟩ :=
    (List.eq_nil_or_concat (Text.split '/' p.text)).resolve_left (Text.split_ne_nil '/' p.text)
  rw [List.concat_eq_append] at split
  rw [FileTree.pieces, split, List.getLast?_concat] at named
  have kept : ¬(last == "") = true := by simpa using named
  rw [namedPieces, FileTree.pieces, split, List.reverse_concat,
    List.dropWhile_cons_of_neg (p := (· == "")) kept, List.reverse_cons, List.reverse_reverse]

theorem placeToWrite_eq_ok (goes : tree.placeToWrite current p = .ok place) :
    ∃ l, tree.locate current p (FileTree.pieces p) = .ok l ∧ l.place = place ∧
      tree.hasDirectory place = false := by
  rw [placeToWrite] at goes
  cases leads : tree.locate current p (namedPieces p) with
  | error e =>
    rw [leads] at goes
    cases goes
  | ok l =>
    obtain ⟨used, follows⟩ := follow_of_locate leads
    rw [leads] at goes
    have ends : p.text.toList.getLast? ≠ some '/' := by
      intro slash
      cases l with
      | free => simp [slash] at goes
      | found other node => cases node <;> simp [slash] at goes
    rw [namedPieces_eq used ends] at leads
    refine ⟨l, leads, ?_⟩
    cases l with
    | free other =>
      have same : other = place := by simpa [ends] using goes
      exact ⟨same, by rw [hasDirectory, ← same, node?_of_follow_free follows]; rfl⟩
    | found other node =>
      cases node with
      | directory => cases goes
      | file bytes =>
        have same : other = place := by simpa [ends] using goes
        exact ⟨same, by rw [hasDirectory, ← same, node?_of_follow_found follows]; rfl⟩

theorem write_eq_ok {text : String} {later : FileTree}
    (writes : tree.write current p text = (.ok (), later)) :
    ∃ place, later = tree.put place (.file text.toUTF8) ∧ tree.hasDirectory place = false ∧
      later.place? current p = some place ∧ later.read current p = .ok text.toUTF8 := by
  rw [write] at writes
  cases goes : tree.placeToWrite current p with
  | error e =>
    rw [goes] at writes
    cases writes
  | ok place =>
    rw [goes] at writes
    obtain ⟨l, leads, same, file⟩ := placeToWrite_eq_ok goes
    have moved := locate_put_ok text.toUTF8 file leads
    rw [filled, if_pos same] at moved
    cases writes
    exact ⟨place, rfl, file, by rw [place?, moved]; rfl, by rw [read, moved]⟩

theorem write_eq_error {text : String} {later : FileTree} {e : DiskError}
    (fails : tree.write current p text = (.error e, later)) : later = tree := by
  rw [write] at fails
  cases goes : tree.placeToWrite current p with
  | error e =>
    rw [goes] at fails
    exact (congrArg Prod.snd fails).symm
  | ok place =>
    rw [goes] at fails
    cases fails

theorem kind_of_read {found : ByteArray} (reads : tree.read current p = .ok found) :
    tree.kind current p = some .file := by
  rw [read] at reads
  rw [kind]
  split at reads <;> simp_all [TreeNode.kind]

end FileTree

end VersionAlignment
