import VersionAlignment.Proofs.WrittenFiles

set_option autoImplicit false

namespace VersionAlignment.FileTree

variable {tree : FileTree} {place current start : Place} {node : TreeNode} {bytes : ByteArray}
  {pieces : List String} {p : Path}

theorem follow_append {more : List String}
    (leads : tree.follow start pieces = .ok (.found place node)) :
    tree.follow start (pieces ++ more) = tree.follow place more := by
  fun_induction follow tree start pieces with
  | case1 start node here =>
    cases leads
    rfl
  | case4 start piece rest directory idle ih =>
    rw [List.cons_append, follow, if_neg directory, if_pos idle, ih leads]
  | case5 start rest directory idle ih =>
    rw [List.cons_append, follow, if_neg directory, if_neg idle, if_pos rfl, ih leads]
  | case7 start piece rest directory idle up short next used ih =>
    rw [List.cons_append, follow, if_neg directory, if_neg idle, if_neg up, if_neg short,
      if_pos used, ih leads]
  | case2 | case3 | case6 | case8 | case9 => cases leads

theorem follow_append_congr {more others : List String} (nonempty : more ≠ [])
    (nonempty' : others ≠ [])
    (same : ∀ place, tree.follow place more = tree.follow place others) (start : Place) :
    tree.follow start (pieces ++ more) = tree.follow start (pieces ++ others) := by
  induction pieces generalizing start with
  | nil => exact same start
  | cons piece rest ih =>
    have more : (rest ++ more).isEmpty = false := by simp [nonempty]
    have others : (rest ++ others).isEmpty = false := by simp [nonempty']
    simp only [List.cons_append, follow, ih, more, others]

theorem follow_idle {idle more : List String} (empty : ∀ piece ∈ idle, piece = "")
    (nonempty : more ≠ []) (place : Place) :
    tree.follow place (idle ++ more) = tree.follow place more := by
  induction idle with
  | nil => rfl
  | cons piece idle ih =>
    obtain ⟨first, empty⟩ := List.forall_mem_cons.1 empty
    by_cases directory : tree.hasDirectory place = true
    · have lost : Path.isIdle piece = true := by rw [first]; rfl
      rw [List.cons_append, follow, if_neg (by simp [directory]), if_pos lost, ih empty]
    · have file : tree.hasDirectory place = false := by simpa using directory
      rw [follow_of_not_hasDirectory file (by simp), follow_of_not_hasDirectory file nonempty]

theorem follow_below_file {name : String} (named : Path.IsName name)
    (file : tree.hasDirectory (place ++ [name]) = false) (nonempty : pieces ≠ []) :
    ∃ e, tree.follow place (name :: pieces) = .error e := by
  obtain ⟨used, here, up, -⟩ := named
  have idle : Path.isIdle name = false := by simp [Path.isIdle, used, here]
  have below := follow_of_not_hasDirectory file nonempty
  cases directory : tree.hasDirectory place with
  | false => exact ⟨.notDirectory, follow_of_not_hasDirectory directory (by simp)⟩
  | true =>
    by_cases long : maxNameSize < name.utf8ByteSize
    · exact ⟨.nameTooLong, by simp [follow, directory, idle, up, long]⟩
    · cases there : tree.node? (place ++ [name]) with
      | some => exact ⟨.notDirectory, by simp [follow, directory, idle, up, long, there, below]⟩
      | none => exact ⟨.notFound, by simp [follow, directory, idle, up, long, there, nonempty]⟩

theorem kind_join_of_file {directory : Path} {name text : String}
    (leads : tree.locate current directory (FileTree.pieces directory) =
      .ok (.found place .directory))
    (named : Path.IsName name) (file : tree.hasDirectory (place ++ [name]) = false)
    (relative : Path.startsAtRoot text = false) :
    tree.kind current ((directory.join name).join text) = none := by
  obtain ⟨used, follows⟩ := follow_of_locate leads
  have relative' := Path.startsAtRoot_of_not_mem named.2.2.2
  have used' := Path.text_join_ne_empty relative' used
  have starts : origin current ((directory.join name).join text) = origin current directory := by
    rw [origin, Path.startsAtRoot_join relative used', Path.startsAtRoot_join relative' used,
      ← origin]
  obtain ⟨front, idle, split, empty, joined⟩ := Path.exists_split_join_join named relative used
  -- The pieces lead to the directory first, also without the empty ones that the joining has lost.
  have below : tree.follow (origin current directory) (front ++ name :: Text.split '/' text) =
      tree.follow place (name :: Text.split '/' text) := by
    calc tree.follow (origin current directory) (front ++ name :: Text.split '/' text)
        = tree.follow (origin current directory)
            (front ++ (idle ++ name :: Text.split '/' text)) :=
          follow_append_congr (by simp) (by simp)
            (fun place => (follow_idle empty (by simp) place).symm) _
      _ = tree.follow place (name :: Text.split '/' text) := by
          rw [← List.append_assoc, ← split]
          exact follow_append follows
  obtain ⟨e, fails⟩ := follow_below_file named file (Text.split_ne_nil '/' text)
  rcases locate_cases current ((directory.join name).join text)
    (FileTree.pieces ((directory.join name).join text)) with ⟨e', refused⟩ | ⟨-, goes⟩
  · rw [kind, refused]
  · rw [kind, goes, starts, FileTree.pieces, joined, below, fails]

theorem nameIn?_eq_some {directory : Place} {entry : Place × TreeNode} {name : String} :
    nameIn? directory entry = some name ↔ entry.1 = directory ++ [name] := by
  rw [nameIn?]
  constructor
  · intro named
    split at named
    · next last ends =>
      split at named
      · next same =>
        obtain ⟨above, whole⟩ := List.getLast?_eq_some_iff.1 ends
        rw [whole, List.dropLast_concat] at same
        rw [whole, same, Option.some.inj named]
      · cases named
    · cases named
  · intro same
    simp [same]

theorem filter_names_of_agree (directory : Place) {test test' : String → Bool}
    (refuses : ∀ name, place = directory ++ [name] → test' name = false)
    {entries : List (Place × TreeNode)}
    (agree : ∀ name ∈ entries.filterMap (nameIn? directory), test' name = test name) :
    ((entries.filter fun entry => entry.1 != place).filterMap (nameIn? directory)).filter test' =
      (entries.filterMap (nameIn? directory)).filter test := by
  induction entries with
  | nil => rfl
  | cons entry entries ih =>
    cases named : nameIn? directory entry with
    | none =>
      rw [List.filterMap_cons_none named] at agree ⊢
      by_cases same : entry.1 = place
      · rw [List.filter_cons_of_neg (by simp [same]), ih agree]
      · rw [List.filter_cons_of_pos (by simp [same]), List.filterMap_cons_none named, ih agree]
    | some name =>
      rw [List.filterMap_cons_some named] at agree ⊢
      obtain ⟨first, agree⟩ := List.forall_mem_cons.1 agree
      by_cases same : entry.1 = place
      · have off : test' name = false := refuses name (same ▸ nameIn?_eq_some.1 named)
        rw [List.filter_cons_of_neg (by simp [same]), ih agree,
          List.filter_cons_of_neg (by simp [← first, off])]
      · rw [List.filter_cons_of_pos (by simp [same]), List.filterMap_cons_some named,
          List.filter_cons, List.filter_cons, first, ih agree]

theorem names_eq_ok {names : List String} (lists : tree.names current p = .ok names) :
    ∃ directory, tree.locate current p (FileTree.pieces p) = .ok (.found directory .directory) ∧
      names = tree.entries.filterMap (nameIn? directory) := by
  rw [FileTree.names] at lists
  split at lists
  · next directory leads => exact ⟨directory, leads, (Except.ok.inj lists).symm⟩
  · cases lists
  · cases lists
  · cases lists

theorem filter_names_put (bytes : ByteArray) (file : tree.hasDirectory place = false)
    {names : List String} (lists : tree.names current p = .ok names) (test test' : String → Bool)
    (agree : ∀ name ∈ names, test' name = test name)
    (refuses : ∀ directory name, tree.locate current p (FileTree.pieces p) =
      .ok (.found directory .directory) → place = directory ++ [name] → test' name = false) :
    ∃ names', (tree.put place (.file bytes)).names current p = .ok names' ∧
      names'.filter test' = names.filter test := by
  obtain ⟨directory, leads, rfl⟩ := names_eq_ok lists
  have apart : directory ≠ place := by
    rintro rfl
    rw [hasDirectory, node?_of_follow_found (follow_of_locate leads).2] at file
    cases file
  have moved := locate_put_ok bytes file leads
  have still : filled place bytes (.found directory .directory) = .found directory .directory :=
    if_neg apart
  rw [still] at moved
  refine ⟨_, by rw [FileTree.names, moved], ?_⟩
  have rest := filter_names_of_agree directory (fun name => refuses directory name leads) agree
  cases named : nameIn? directory (place, TreeNode.file bytes) with
  | none => rwa [put, List.filterMap_cons_none named]
  | some name =>
    have off : test' name = false := refuses directory name leads (nameIn?_eq_some.1 named)
    rwa [put, List.filterMap_cons_some named, List.filter_cons_of_neg (by simp [off])]

end VersionAlignment.FileTree
