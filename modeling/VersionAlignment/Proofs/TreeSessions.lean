import VersionAlignment.Disk.Document
import VersionAlignment.Disk.Tree

set_option autoImplicit false

namespace VersionAlignment.Session

variable {ε δ α β : Type} {s : Session ε (StateM FileTree) α}
  {f : α → Session ε (StateM FileTree) β} {log log' : Log} {tree tree' later : FileTree}
  {post : α → Prop} {result : β → Prop}

def runOn (s : Session ε (StateM FileTree) α) (log : Log) (tree : FileTree) :
    (Except ε α × Log) × FileTree :=
  (s.run.run log).run tree

theorem runOn_bind : (s >>= f).runOn log tree =
    ((ExceptT.bindCont f (s.runOn log tree).1.1).run (s.runOn log tree).1.2).run
      (s.runOn log tree).2 := rfl

theorem runOn_bind_ok {a : α} (runs : s.runOn log tree = ((.ok a, log'), tree')) :
    (s >>= f).runOn log tree = (f a).runOn log' tree' := by
  rw [runOn_bind, runs]
  rfl

theorem runOn_bind_error {e : ε} (runs : s.runOn log tree = ((.error e, log'), tree')) :
    (s >>= f).runOn log tree = ((.error e, log'), tree') := by
  rw [runOn_bind, runs]
  rfl

theorem runOn_perform_bind (action : StateM FileTree α) :
    (perform action >>= f).runOn log tree =
      (f (action.run tree).1).runOn log (action.run tree).2 := rfl

theorem runOn_adapt (g : ε → δ) : (adapt g s).runOn log tree =
    (((s.runOn log tree).1.1.mapError g, (s.runOn log tree).1.2), (s.runOn log tree).2) := rfl

/-- A session that leaves the tree as it is. What it comes to there, if it succeeds, it comes to on
a later tree as well. -/
def Repeats (tree later : FileTree) (post : α → Prop) (s : Session ε (StateM FileTree) α) : Prop :=
  ∀ log, ∃ outcome log', s.runOn log tree = ((outcome, log'), tree) ∧
    ∀ a, outcome = .ok a → post a ∧ s.runOn log later = ((.ok a, log'), later)

namespace Repeats

theorem pure {a : α} (holds : post a) :
    Repeats tree later post (Pure.pure a : Session ε (StateM FileTree) α) := by
  intro log
  refine ⟨.ok a, log, rfl, fun b same => ?_⟩
  cases same
  exact ⟨holds, rfl⟩

theorem throw (e : ε) :
    Repeats tree later post (MonadExcept.throw e : Session ε (StateM FileTree) α) :=
  fun log => ⟨.error e, log, rfl, fun _ same => by cases same⟩

theorem weaken {post' : α → Prop} (session : Repeats tree later post s)
    (weaker : ∀ a, post a → post' a) : Repeats tree later post' s := by
  intro log
  obtain ⟨outcome, log', runs, again⟩ := session log
  exact ⟨outcome, log', runs, fun a same => (again a same).imp_left (weaker a)⟩

theorem logAll (lines : Log) : Repeats tree later (fun _ => True)
    (Session.logAll lines : Session ε (StateM FileTree) Unit) :=
  fun log => ⟨.ok (), log ++ lines, rfl, fun _ _ => ⟨trivial, rfl⟩⟩

theorem ofExcept {outcome : Except ε α} (holds : ∀ a, outcome = .ok a → post a) :
    Repeats tree later post (Session.ofExcept outcome : Session ε (StateM FileTree) α) := by
  cases outcome with
  | ok a => exact pure (holds a rfl)
  | error e => exact throw e

theorem bind (first : Repeats tree later post s)
    (rest : ∀ a, post a → Repeats tree later result (f a)) :
    Repeats tree later result (s >>= f) := by
  intro log
  obtain ⟨outcome, log', runs, again⟩ := first log
  cases outcome with
  | error e => exact ⟨.error e, log', runOn_bind_error runs, fun _ same => by cases same⟩
  | ok a =>
    obtain ⟨holds, runs'⟩ := again a rfl
    rw [runOn_bind_ok runs, runOn_bind_ok runs']
    exact rest a holds log'

theorem adapt (g : ε → δ) (session : Repeats tree later post s) :
    Repeats tree later post (Session.adapt g s) := by
  intro log
  obtain ⟨outcome, log', runs, again⟩ := session log
  refine ⟨outcome.mapError g, log', by rw [runOn_adapt, runs], fun a same => ?_⟩
  cases outcome with
  | error e => cases same
  | ok b =>
    cases same
    obtain ⟨holds, runs'⟩ := again a rfl
    exact ⟨holds, by rw [runOn_adapt, runs']; rfl⟩

theorem perform_bind {action : StateM FileTree α} {a : α} (here : action.run tree = (a, tree))
    (there : action.run later = (a, later)) (rest : Repeats tree later result (f a)) :
    Repeats tree later result (perform action >>= f) := by
  intro log
  simp only [runOn_perform_bind, here, there]
  exact rest log

theorem perform_except_bind {action : StateM FileTree (Except δ α)} {outcome : Except δ α}
    {f : Except δ α → Session ε (StateM FileTree) β} (here : action.run tree = (outcome, tree))
    (fails : ∀ e, outcome = .error e → ∃ e', f (.error e) = MonadExcept.throw e')
    (finds : ∀ a, outcome = .ok a →
      action.run later = (.ok a, later) ∧ Repeats tree later result (f (.ok a))) :
    Repeats tree later result (perform action >>= f) := by
  intro log
  rw [runOn_perform_bind, runOn_perform_bind, here]
  cases outcome with
  | error e =>
    obtain ⟨e', thrown⟩ := fails e rfl
    rw [thrown]
    exact ⟨.error e', log, rfl, fun _ same => by cases same⟩
  | ok a =>
    obtain ⟨there, rest⟩ := finds a rfl
    rw [there]
    exact rest log

end Repeats

end VersionAlignment.Session

namespace VersionAlignment

variable {ε α : Type} {tree later : FileTree} {current : FileTree.Place} {p : Path}
  {ofText : String → Except ReadError α}

def FileTree.text (tree : FileTree) (current : Place) (p : Path) : Except DiskError String :=
  tree.read current p >>= Disk.textOfBytes

def FileTree.load (tree : FileTree) (current : Place) (p : Path)
    (ofText : String → Except ReadError α) : Except ReadError α :=
  (tree.text current p).mapError .disk >>= ofText

theorem FileTree.text_of_read {text : String} (reads : tree.read current p = .ok text.toUTF8) :
    tree.text current p = .ok text := by
  have sound : String.fromUTF8? text.toUTF8 = some text := dif_pos text.isValidUTF8
  rw [FileTree.text, reads]
  show Disk.textOfBytes text.toUTF8 = _
  rw [Disk.textOfBytes, sound]

theorem FileTree.load_of_text {text : String} (found : tree.text current p = .ok text) :
    tree.load current p ofText = ofText text := by
  rw [FileTree.load, found]
  rfl

theorem FileTree.run_isFile (tree : FileTree) (current : Place) (p : Path) :
    ((FileTree.disk current).isFile p).run tree = (tree.kind current p == some .file, tree) := rfl

theorem FileTree.run_isDirectory (tree : FileTree) (current : Place) (p : Path) :
    ((FileTree.disk current).isDirectory p).run tree =
      (tree.kind current p == some .directory, tree) := rfl

theorem FileTree.run_isUsed (tree : FileTree) (current : Place) (p : Path) :
    ((FileTree.disk current).isUsed p).run tree = ((tree.kind current p).isSome, tree) := rfl

theorem FileTree.run_names (tree : FileTree) (current : Place) (p : Path) :
    ((FileTree.disk current).names p).run tree = (tree.names current p, tree) := rfl

theorem FileTree.run_write (tree : FileTree) (current : Place) (p : Path) (text : String) :
    ((FileTree.disk current).write p text).run tree = tree.write current p text := rfl

theorem FileTree.run_readText (tree : FileTree) (current : Place) (p : Path) :
    ((FileTree.disk current).readText p).run tree = (tree.text current p, tree) := rfl

theorem FileTree.run_load (tree : FileTree) (current : Place) (p : Path)
    (ofText : String → Except ReadError α) :
    ((FileTree.disk current).load p ofText).run tree = (tree.load current p ofText, tree) := rfl

def FileTree.Stays (tree later : FileTree) (current : Place) (p : Path) : Prop :=
  ∀ bytes, tree.read current p = .ok bytes → later.read current p = .ok bytes

theorem FileTree.Stays.text (stays : tree.Stays later current p) {text : String}
    (reads : tree.text current p = .ok text) : later.text current p = .ok text := by
  rw [FileTree.text] at *
  cases found : tree.read current p with
  | error e =>
    rw [found] at reads
    cases reads
  | ok bytes => rwa [stays bytes found, ← found]

theorem FileTree.Stays.load (stays : tree.Stays later current p) {a : α}
    (reads : tree.load current p ofText = .ok a) : later.load current p ofText = .ok a := by
  rw [FileTree.load] at *
  cases found : tree.text current p with
  | error e =>
    rw [found] at reads
    cases reads
  | ok text => rwa [stays.text found, ← found]

theorem Session.Repeats.loadLogged (stays : tree.Stays later current p) (task : String) :
    Session.Repeats tree later (fun a => tree.load current p ofText = .ok a)
      ((FileTree.disk current).loadLogged p ofText task) := by
  unfold Disk.loadLogged
  refine .perform_except_bind (FileTree.run_readText tree current p) (fun e _ => ⟨.disk e, rfl⟩)
    fun text found => ⟨by rw [FileTree.run_readText, stays.text found], ?_⟩
  rw [FileTree.load_of_text found]
  cases made : ofText text with
  | ok a =>
    simp only [made]
    exact .pure rfl
  | error e =>
    simp only [made]
    exact .bind (.logAll _) fun _ _ => .throw e

end VersionAlignment
