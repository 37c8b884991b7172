import CacheAction.Foundations.Effect
import CacheAction.NixStore.FileSystem

/-!
# Serialising a store path

`write_nar` walks the tree of a store path and calls the NAR writer on the way.
The writer belongs to another crate; it is a parameter, and `EmitsTokens` says
what is relied on: every call appends its tokens to what has been emitted.

Whatever the order in which directories are listed, what is emitted is the NAR of
the tree, with the entries of each directory sorted by name; and if the tree has
a node that a NAR cannot store, the writer is not shut down (`nar_canonical`).

`write_nar` is recursive through the file system, so its recursion ends with the tree and not
with anything that the program can see.  Here it takes fuel, and the theorem says how much is
enough: the depth of the tree, which is unknown to the program and not bounded.  More fuel
changes nothing.

The proof goes by induction on the tree and not on the fuel.  For each node it is shown that
the calls made for it append the tokens of its canonical form (`Writes`), whatever has been
emitted before; a directory is then the induction over its sorted entries.
-/

namespace CacheAction

namespace NixStore

/-! ## The program -/

/-- `nix_compat::nar::writer`, over a writer in `W`.  The calls on a node are on
the node that has been opened last; `D` is the type of `Directory`. -/
structure NarWriter (W D : Type) where
  openNar : Effect W IoError Unit
  directory : Effect W IoError D
  entry : D → OsString → Effect W IoError D
  close : D → Effect W IoError Unit
  symlink : OsString → Effect W IoError Unit
  file : Bool → ℕ → List UInt8 → Effect W IoError Unit
  shutdown : Effect W IoError Unit

variable {W D : Type} (nar : NarWriter W D) (display : Path → String)

/-- The error for a file of another type. -/
def unsupportedFileType (nodePath : Path) : IoError :=
  .invalidData ("unsupported file type at " ++ display nodePath)

namespace FileSystem

variable (fs : FileSystem)

/-- `read_dir_entries`. -/
def readDirEntries (dirPath : Path) : Except IoError (List OsString) :=
  (fs.readDir dirPath).map fun fileNames => fileNames.insertionSort (· ≤ ·)

/-- The loop of `write_nar` over the names of a directory; `writeChild` is the
recursive call. -/
def writeEntries (writeChild : Path → Effect W IoError Unit) :
    List OsString → Path → D → Effect W IoError (Path × D)
  | [], childPath, directory => pure (childPath, directory)
  | childName :: rest, childPath, directory => do
      let directory ← nar.entry directory childName
      let childPath := childPath.push childName
      writeChild childPath
      let childPath := childPath.pop
      writeEntries writeChild rest childPath directory

/-- `write_nar`; `fuel` bounds the depth of the recursion. -/
def writeNar : ℕ → Path → Effect W IoError Unit
  | 0, _ => Effect.outOfFuel
  | fuel + 1, nodePath => do
      let metadata ← Effect.ofExcept (fs.symlinkMetadata nodePath)
      match metadata with
      | .dir => do
          let directory ← nar.directory
          let childNames ← Effect.ofExcept (fs.readDirEntries nodePath)
          let (_, directory) ← writeEntries nar (writeNar fuel) childNames nodePath directory
          nar.close directory
      | .symlink => do
          let target ← Effect.ofExcept (fs.readLink nodePath)
          nar.symlink target
      | .file mode len => do
          let executable := mode &&& 0o100 != 0
          let contents ← Effect.ofExcept (fs.openFile nodePath)
          nar.file executable len contents
      | .special _ => throw (unsupportedFileType display nodePath)

end FileSystem

/-- `NixStore::write_nar`. -/
def writeNar (fs : FileSystem) (fuel : ℕ) : Effect W IoError Unit := do
  nar.openNar
  fs.writeNar nar display fuel fs.root
  nar.shutdown

/-! ## What the writer emits -/

/-- What is seen of a writer: the tokens that it has emitted, whether it has been
shut down, and the entry of a directory that was entered last. -/
structure WriterView (W D : Type) where
  emitted : W → List Token
  isShutDown : W → Bool
  entered : D → Option OsString

namespace WriterView

variable (view : WriterView W D)

/-- Tokens are emitted, and the writer is not shut down. -/
structure Appends (w w' : W) (ts : List Token) : Prop where
  emitted : view.emitted w' = view.emitted w ++ ts
  open_ : view.isShutDown w' = view.isShutDown w

variable {view}

theorem Appends.nil (w : W) : view.Appends w w [] :=
  ⟨(List.append_nil _).symm, rfl⟩

theorem Appends.trans {w w' w'' : W} {ts ts' : List Token} (first : view.Appends w w' ts)
    (second : view.Appends w' w'' ts') : view.Appends w w'' (ts ++ ts') :=
  ⟨by rw [second.emitted, first.emitted, List.append_assoc], second.open_.trans first.open_⟩

end WriterView

/-- The end of the entry that was entered last. -/
def endEntry : Option OsString → List Token
  | none => []
  | some _ => [utf8 ")"]

/-- Every call emits its tokens.  Entries are to be entered in increasing order. -/
structure EmitsTokens (view : WriterView W D) : Prop where
  openNar : ∀ w, ∃ w', nar.openNar.Returns w () w' ∧ view.Appends w w' Nar.header
  directory : ∀ w, ∃ directory w', nar.directory.Returns w directory w' ∧
    view.entered directory = none ∧ view.Appends w w' [utf8 "directory"]
  entry : ∀ directory name w, (∀ last ∈ view.entered directory, last < name) →
    ∃ directory' w', (nar.entry directory name).Returns w directory' w' ∧
      view.entered directory' = some name ∧
      view.Appends w w' (endEntry (view.entered directory) ++ Nar.openEntry name)
  close : ∀ directory w, ∃ w', (nar.close directory).Returns w () w' ∧
    view.Appends w w' (endEntry (view.entered directory) ++ [utf8 ")"])
  symlink : ∀ target w, ∃ w', (nar.symlink target).Returns w () w' ∧
    view.Appends w w' (Nar.leafTokens (.symlink target))
  file : ∀ executable contents w, ∃ w',
    (nar.file executable contents.length contents).Returns w () w' ∧
      view.Appends w w' (Nar.leafTokens (.regular executable contents))
  shutdown : ∀ w, ∃ w', nar.shutdown.Returns w () w' ∧ view.emitted w' = view.emitted w ∧
    view.isShutDown w' = true

/-- What a NAR stores of a node. -/
def FileNode.narLeaf : FileNode → Option NarLeaf
  | .symlink target => some (.symlink target)
  | .file mode contents => some (.regular (mode &&& 0o100 != 0) contents)
  | .special _ => none

/-- The error says that there is a file of another type, and where. -/
def FileSystem.Unsupported (fs : FileSystem) (e : IoError) : Prop :=
  ∃ path fileType, fs.tree.find path = some (.leaf (.special fileType)) ∧
    e = unsupportedFileType display (fs.root ++ path)

/-- A node is written, or the tree cannot be. -/
def FileSystem.Writes (fs : FileSystem) (view : WriterView W D) (x : Effect W IoError Unit) :
    Option Nar → Prop
  | some node => ∀ w, ∃ w', x.Returns w () w' ∧ view.Appends w w' node.nodeTokens
  | none => ∀ w, ∃ e w', x.Fails w e w' ∧ fs.Unsupported display e ∧
      view.isShutDown w' = view.isShutDown w

/-! ## The walk -/

namespace FileSystem

variable {nar display} {fs : FileSystem} {view : WriterView W D}

/-- Entering an entry leaves the later ones to come. -/
theorem enter (emits : EmitsTokens nar view) {α : Type} {name : OsString} {node : α}
    {rest : List (OsString × α)}
    (increasing : (((name, node) :: rest).map Prod.fst).Pairwise (· < ·)) {directory : D}
    (later : ∀ last ∈ view.entered directory, ∀ child ∈ (name, node) :: rest, last < child.1)
    (w : W) :
    ∃ directory' w', (nar.entry directory name).Returns w directory' w' ∧
      view.entered directory' = some name ∧
      view.Appends w w' (endEntry (view.entered directory) ++ Nar.openEntry name) ∧
      ∀ last ∈ view.entered directory', ∀ child ∈ rest, last < child.1 := by
  obtain ⟨before, -⟩ := List.pairwise_cons.mp increasing
  obtain ⟨directory', w', entry, entered, append⟩ := emits.entry directory name w
    fun last member => later last member _ List.mem_cons_self
  refine ⟨directory', w', entry, entered, append, ?_⟩
  rw [entered]
  rintro _ ⟨⟩ child member
  exact before _ (List.mem_map_of_mem member)

section Loop

variable {writeChild : Path → Effect W IoError Unit} {path : Path}

/-- The loop writes the entries, if every child is written from its own path.  The
end of the last entry is left to `close`. -/
theorem writeEntries_returns (emits : EmitsTokens nar view) {children : List (OsString × Nar)}
    (hchildren : ∀ child ∈ children,
      fs.Writes display view (writeChild (path.push child.1)) (some child.2))
    (increasing : (children.map Prod.fst).Pairwise (· < ·)) {directory : D}
    (later : ∀ last ∈ view.entered directory, ∀ child ∈ children, last < child.1) (w : W) :
    ∃ directory' w' ts,
      (writeEntries nar writeChild (children.map Prod.fst) path directory).Returns w
          (path, directory') w' ∧
        view.Appends w w' ts ∧
        ts ++ endEntry (view.entered directory') =
          endEntry (view.entered directory) ++ Nar.entriesTokens children := by
  induction children generalizing directory w with
  | nil => exact ⟨directory, w, [], Effect.returns_pure _ w, .nil w, by simp [Nar.entriesTokens]⟩
  | cons child rest ih =>
      obtain ⟨name, node⟩ := child
      obtain ⟨hchild, hrest⟩ := List.forall_mem_cons.mp hchildren
      obtain ⟨-, others⟩ := List.pairwise_cons.mp increasing
      obtain ⟨directory₁, w₁, entry, entered, append₁, later₁⟩ := enter emits increasing later w
      obtain ⟨w₂, child, append₂⟩ := hchild w₁
      obtain ⟨directory', w', ts, loop, append₃, tokens⟩ := ih hrest others later₁ w₂
      refine ⟨directory', w', _, ?_, (append₁.trans append₂).trans append₃, ?_⟩
      · refine entry.bind (child.bind ?_)
        -- the next child starts from the path of the directory
        rw [Path.pop_push]
        exact loop
      · rw [List.append_assoc, tokens, entered, Nar.entriesTokens]
        simp [endEntry]

/-- The loop fails at the first child that cannot be written. -/
theorem writeEntries_fails (emits : EmitsTokens nar view)
    {children : List (OsString × Option Nar)}
    (hchildren : ∀ child ∈ children,
      fs.Writes display view (writeChild (path.push child.1)) child.2)
    (increasing : (children.map Prod.fst).Pairwise (· < ·)) {directory : D}
    (later : ∀ last ∈ view.entered directory, ∀ child ∈ children, last < child.1)
    (unwritable : ∃ child ∈ children, child.2 = none) (w : W) :
    ∃ e w', (writeEntries nar writeChild (children.map Prod.fst) path directory).Fails w e w' ∧
      fs.Unsupported display e ∧ view.isShutDown w' = view.isShutDown w := by
  induction children generalizing directory w with
  | nil => simp at unwritable
  | cons child rest ih =>
      obtain ⟨name, node⟩ := child
      obtain ⟨hchild, hrest⟩ := List.forall_mem_cons.mp hchildren
      obtain ⟨-, others⟩ := List.pairwise_cons.mp increasing
      obtain ⟨directory₁, w₁, entry, -, append₁, later₁⟩ := enter emits increasing later w
      cases node with
      | none =>
          obtain ⟨e, w', fails, unsupported, still⟩ := hchild w₁
          exact ⟨e, w', entry.bind_fails fails.bind, unsupported, still.trans append₁.open_⟩
      | some node =>
          obtain ⟨w₂, child, append₂⟩ := hchild w₁
          have unwritable₁ : ∃ child ∈ rest, child.2 = none := by
            simpa using unwritable
          obtain ⟨e, w', fails, unsupported, still⟩ := ih hrest others later₁ unwritable₁ w₂
          refine ⟨e, w', entry.bind_fails (child.bind_fails ?_), unsupported,
            still.trans (append₁.trans append₂).open_⟩
          rw [Path.pop_push]
          exact fails

end Loop

/-- The names of a directory are sorted, whatever the order of the listing. -/
theorem readDirEntries_eq {path : Path} {entries : List (OsString × DirTree OsString FileNode)}
    (here : fs.tree.find path = some (.directory entries)) :
    fs.readDirEntries (fs.root ++ path) =
      .ok ((entries.map Prod.fst).insertionSort (· ≤ ·)) := by
  rw [readDirEntries, (readDir_directory here).2,
    ← DirTree.insertionSort_eq_of_perm (fs.lists path entries here)]
  rfl

/-- In a directory that no entry has been entered in, any entry comes next. -/
theorem first_of_fresh {directory : D} (fresh : view.entered directory = none) {α : Type}
    {children : List (OsString × α)} :
    ∀ last ∈ view.entered directory, ∀ child ∈ children, last < child.1 := by
  rw [fresh]
  rintro _ ⟨⟩

section Directory

variable {path : Path} {entries : List (OsString × DirTree OsString FileNode)} {fuel : ℕ}

/-- The names of the entries are distinct. -/
theorem nodup_names (here : fs.tree.find path = some (.directory entries)) :
    (entries.map Prod.fst).Nodup := by
  cases fs.unique.find here with
  | directory names _ => exact names

/-- The path of an entry. -/
theorem push_root (name : OsString) :
    Path.push (fs.root ++ path) name = fs.root ++ (path ++ [name]) :=
  List.append_assoc _ _ _

/-- A directory is written if all its children are. -/
theorem writeNar_directory_returns (emits : EmitsTokens nar view)
    (here : fs.tree.find path = some (.directory entries))
    (hchildren : ∀ entry ∈ entries,
      fs.Writes display view (fs.writeNar nar display fuel (fs.root ++ (path ++ [entry.1])))
        (entry.2.canonical FileNode.narLeaf))
    {children : List (OsString × Nar)}
    (hentries : DirTree.canonicalEntries FileNode.narLeaf entries = some children) :
    fs.Writes display view (fs.writeNar nar display (fuel + 1) (fs.root ++ path))
      (some (.directory (DirTree.sortByName children))) := by
  intro w
  have strict := DirTree.insertionSort_strict (nodup_names here)
  have listed := readDirEntries_eq here
  have sorted : (DirTree.sortByName children).map Prod.fst =
      (entries.map Prod.fst).insertionSort (· ≤ ·) := by
    rw [DirTree.map_fst_sortByName, DirTree.map_fst_of_canonicalEntries hentries]
  rw [← sorted] at strict listed
  have written : ∀ child ∈ DirTree.sortByName children,
      fs.Writes display view
        (fs.writeNar nar display fuel (Path.push (fs.root ++ path) child.1)) (some child.2) := by
    intro child member
    obtain ⟨entry, hentry, name, canon⟩ := DirTree.exists_of_mem_canonicalEntries hentries
      ((DirTree.sortByName_perm children).mem_iff.mp member)
    rw [push_root, name, ← canon]
    exact hchildren entry hentry
  obtain ⟨directory, w₁, call, fresh, append₁⟩ := emits.directory w
  obtain ⟨directory', w₂, ts, loop, append₂, tokens⟩ :=
    writeEntries_returns emits written strict (first_of_fresh fresh) w₁
  obtain ⟨w', close, append₃⟩ := emits.close directory' w₂
  refine ⟨w', ?_, ?_⟩
  · exact (Effect.returns_ofExcept (readDir_directory here).1 w).bind
      (call.bind ((Effect.returns_ofExcept listed w₁).bind (loop.bind close)))
  · have all := (append₁.trans append₂).trans append₃
    rw [List.append_assoc, ← List.append_assoc ts, tokens, fresh] at all
    exact all

/-- A directory cannot be written if one of its children cannot be. -/
theorem writeNar_directory_fails (emits : EmitsTokens nar view)
    (here : fs.tree.find path = some (.directory entries))
    (hchildren : ∀ entry ∈ entries,
      fs.Writes display view (fs.writeNar nar display fuel (fs.root ++ (path ++ [entry.1])))
        (entry.2.canonical FileNode.narLeaf))
    (hentries : DirTree.canonicalEntries FileNode.narLeaf entries = none) :
    fs.Writes display view (fs.writeNar nar display (fuel + 1) (fs.root ++ path)) none := by
  intro w
  have strict := DirTree.insertionSort_strict (nodup_names here)
  have listed := readDirEntries_eq here
  have sorted : ((DirTree.sortByName entries).map fun entry =>
      (entry.1, entry.2.canonical FileNode.narLeaf)).map Prod.fst =
        (entries.map Prod.fst).insertionSort (· ≤ ·) := by
    rw [← DirTree.map_fst_sortByName, List.map_map]
    rfl
  rw [← sorted] at strict listed
  have written : ∀ child ∈ (DirTree.sortByName entries).map fun entry =>
      (entry.1, entry.2.canonical FileNode.narLeaf),
      fs.Writes display view
        (fs.writeNar nar display fuel (Path.push (fs.root ++ path) child.1)) child.2 := by
    intro child member
    obtain ⟨entry, hentry, rfl⟩ := List.mem_map.mp member
    rw [push_root]
    exact hchildren entry ((DirTree.sortByName_perm entries).mem_iff.mp hentry)
  have unwritable : ∃ child ∈ (DirTree.sortByName entries).map fun entry =>
      (entry.1, entry.2.canonical FileNode.narLeaf), child.2 = none := by
    obtain ⟨entry, hentry, unseen⟩ := DirTree.canonicalEntries_eq_none.mp hentries
    exact ⟨_, List.mem_map_of_mem ((DirTree.sortByName_perm entries).mem_iff.mpr hentry), unseen⟩
  obtain ⟨directory, w₁, call, fresh, append₁⟩ := emits.directory w
  obtain ⟨e, w', fails, unsupported, still⟩ :=
    writeEntries_fails emits written strict (first_of_fresh fresh) unwritable w₁
  refine ⟨e, w', ?_, unsupported, still.trans append₁.open_⟩
  exact (Effect.returns_ofExcept (readDir_directory here).1 w).bind_fails
    (call.bind_fails ((Effect.returns_ofExcept listed w₁).bind_fails fails.bind))

/-- A directory whose children are written, or one of them cannot be. -/
theorem writeNar_directory (emits : EmitsTokens nar view)
    (here : fs.tree.find path = some (.directory entries))
    (hchildren : ∀ entry ∈ entries,
      fs.Writes display view (fs.writeNar nar display fuel (fs.root ++ (path ++ [entry.1])))
        (entry.2.canonical FileNode.narLeaf)) :
    fs.Writes display view (fs.writeNar nar display (fuel + 1) (fs.root ++ path))
      ((DirTree.directory entries).canonical FileNode.narLeaf) := by
  rw [DirTree.canonical]
  cases hentries : DirTree.canonicalEntries FileNode.narLeaf entries with
  | none => exact writeNar_directory_fails emits here hchildren hentries
  | some children => exact writeNar_directory_returns emits here hchildren hentries

end Directory

/-- **A node is written as its canonical tree**, from its own path. -/
theorem writeNar_writes (emits : EmitsTokens nar view) (t : DirTree OsString FileNode) :
    ∀ path, fs.tree.find path = some t → ∃ depth, ∀ fuel, depth ≤ fuel →
      fs.Writes display view (fs.writeNar nar display fuel (fs.root ++ path))
        (t.canonical FileNode.narLeaf) := by
  induction t using DirTree.induction with
  | leaf value =>
      intro path here
      refine ⟨1, fun fuel enough => ?_⟩
      obtain ⟨fuel, rfl⟩ := Nat.exists_eq_succ_of_ne_zero (Nat.ne_of_gt enough)
      cases value with
      | symlink target =>
          intro w
          obtain ⟨metadata, link⟩ := readLink_symlink here
          obtain ⟨w', call, append⟩ := emits.symlink target w
          exact ⟨w', (Effect.returns_ofExcept metadata w).bind
            ((Effect.returns_ofExcept link w).bind call), append⟩
      | file mode contents =>
          intro w
          obtain ⟨metadata, opened⟩ := openFile_file here
          obtain ⟨w', call, append⟩ := emits.file (mode &&& 0o100 != 0) contents w
          exact ⟨w', (Effect.returns_ofExcept metadata w).bind
            ((Effect.returns_ofExcept opened w).bind call), append⟩
      | special fileType =>
          intro w
          exact ⟨_, w, (Effect.returns_ofExcept (symlinkMetadata_special here) w).bind_fails
            (Effect.fails_throw _ w), ⟨path, fileType, here, rfl⟩, rfl⟩
  | directory entries ih =>
      intro path here
      have children : ∃ depth, ∀ fuel, depth ≤ fuel → ∀ entry ∈ entries,
          fs.Writes display view (fs.writeNar nar display fuel (fs.root ++ (path ++ [entry.1])))
            (entry.2.canonical FileNode.narLeaf) :=
        exists_depth fun entry member =>
          ih entry member (path ++ [entry.1]) (DirTree.find_concat_of_mem here (nodup_names here) member)
      obtain ⟨depth, enough⟩ := children
      refine ⟨depth + 1, fun fuel more => ?_⟩
      obtain ⟨fuel, rfl⟩ := Nat.exists_eq_succ_of_ne_zero
        (Nat.ne_of_gt (Nat.lt_of_le_of_lt (Nat.zero_le depth) more))
      exact writeNar_directory emits here (enough fuel (Nat.le_of_succ_le_succ more))

end FileSystem

/-! ## The NAR of a store path -/

/-- What `write_nar` does with a tree. -/
structure Serialised (fs : FileSystem) (view : WriterView W D) : Prop where
  /-- A tree that a NAR can store is written, and the writer is shut down. -/
  written : ∀ node, fs.tree.canonical FileNode.narLeaf = some node →
    ∃ depth, ∀ fuel, depth ≤ fuel → ∀ w, ∃ w', (writeNar nar display fs fuel).Returns w () w' ∧
      view.emitted w' = view.emitted w ++ Nar.tokens node ∧ view.isShutDown w' = true
  /-- The entries are in strictly increasing order of their names. -/
  ordered : ∀ node, fs.tree.canonical FileNode.narLeaf = some node → node.Ordered
  /-- Reading the tokens gives back the tree that has been written. -/
  readBack : ∀ node, fs.tree.canonical FileNode.narLeaf = some node →
    Nar.parse (Nar.tokens node) = some node
  /-- It has the same nodes at the same paths. -/
  faithful : ∀ node, fs.tree.canonical FileNode.narLeaf = some node → ∀ path,
    node.find path = (fs.tree.find path).bind (DirTree.canonical FileNode.narLeaf)
  /-- A tree is written unless it has a node of another type. -/
  writable : fs.tree.canonical FileNode.narLeaf = none ↔
    ∃ path fileType, fs.tree.find path = some (.leaf (.special fileType))
  /-- Then there is an error, and the writer is not shut down. -/
  refused : fs.tree.canonical FileNode.narLeaf = none →
    ∃ depth, ∀ fuel, depth ≤ fuel → ∀ w, ∃ e w', (writeNar nar display fs fuel).Fails w e w' ∧
      fs.Unsupported display e ∧ view.isShutDown w' = view.isShutDown w

section Root

variable {nar display} {fs : FileSystem} {view : WriterView W D}

/-- The root is written between the header and the shutdown. -/
theorem writeNar_returns (emits : EmitsTokens nar view) {fuel : ℕ} {node : Nar}
    (walk : fs.Writes display view (fs.writeNar nar display fuel fs.root) (some node)) (w : W) :
    ∃ w', (writeNar nar display fs fuel).Returns w () w' ∧
      view.emitted w' = view.emitted w ++ Nar.tokens node ∧ view.isShutDown w' = true := by
  obtain ⟨w₁, opened, append₁⟩ := emits.openNar w
  obtain ⟨w₂, walked, append₂⟩ := walk w₁
  obtain ⟨w', shutdown, same, isShutDown⟩ := emits.shutdown w₂
  exact ⟨w', opened.bind (walked.bind shutdown),
    same.trans (append₁.trans append₂).emitted, isShutDown⟩

/-- If the root cannot be written, the writer is not shut down. -/
theorem writeNar_fails (emits : EmitsTokens nar view) {fuel : ℕ}
    (walk : fs.Writes display view (fs.writeNar nar display fuel fs.root) none) (w : W) :
    ∃ e w', (writeNar nar display fs fuel).Fails w e w' ∧ fs.Unsupported display e ∧
      view.isShutDown w' = view.isShutDown w := by
  obtain ⟨w₁, opened, append₁⟩ := emits.openNar w
  obtain ⟨e, w', fails, unsupported, still⟩ := walk w₁
  exact ⟨e, w', opened.bind_fails fails.bind, unsupported, still.trans append₁.open_⟩

end Root

/-- **The NAR serialisation is canonical and faithful.**

One recursion over the tree shows what `write_nar` writes (`writeNar_writes`): the tokens of
the tree with its entries sorted, whatever order `read_dir` lists them in.  What can then be
said about the output is said about that tree: the names ascend strictly, the grammar reads
it back, and it has the same nodes at the same paths as the file system.  Where a file
is neither regular nor a link nor a directory, the same recursion ends in the error. -/
theorem nar_canonical {view : WriterView W D} (emits : EmitsTokens nar view) (fs : FileSystem) :
    Serialised nar display fs view := by
  have walk : ∃ depth, ∀ fuel, depth ≤ fuel →
      fs.Writes display view (fs.writeNar nar display fuel (fs.root ++ []))
        (fs.tree.canonical FileNode.narLeaf) :=
    FileSystem.writeNar_writes emits fs.tree [] (DirTree.find_nil fs.tree)
  rw [List.append_nil] at walk
  obtain ⟨depth, enough⟩ := walk
  exact
    { written := fun node hnode => ⟨depth, fun fuel more w =>
        writeNar_returns emits (hnode ▸ enough fuel more) w⟩
      ordered := fun node hnode => DirTree.canonical_ordered fs.unique hnode
      readBack := fun node hnode => Nar.parse_tokens (DirTree.canonical_ordered fs.unique hnode)
      faithful := fun node hnode path => DirTree.find_canonical fs.unique hnode path
      writable := by
        rw [DirTree.canonical_eq_none fs.unique]
        constructor
        · rintro ⟨path, value, here, unseen⟩
          cases value with
          | special fileType => exact ⟨path, fileType, here⟩
          | _ => cases unseen
        · rintro ⟨path, fileType, here⟩
          exact ⟨path, _, here, rfl⟩
      refused := fun unseen => ⟨depth, fun fuel more w =>
        writeNar_fails emits (unseen ▸ enough fuel more) w⟩ }

/-! ## A writer of tokens -/

/-- A writer that keeps the tokens, and checks its arguments. -/
def tokenWriter : NarWriter (List Token × Bool) (Option OsString) where
  openNar := emit Nar.header
  directory := do
    emit [utf8 "directory"]
    pure none
  entry last name := do
    if ∀ before ∈ last, before < name then
      emit (endEntry last ++ Nar.openEntry name)
      pure (some name)
    else throw .invalidInput
  close last := emit (endEntry last ++ [utf8 ")"])
  symlink target := emit (Nar.leafTokens (.symlink target))
  file executable len contents := do
    if contents.length = len then emit (Nar.leafTokens (.regular executable contents))
    else throw .invalidInput
  shutdown := modify fun w => (w.1, true)
where
  /-- Keep some tokens. -/
  emit (ts : List Token) : Effect (List Token × Bool) IoError Unit :=
    modify fun w => (w.1 ++ ts, w.2)

/-- What is seen of it. -/
def tokenView : WriterView (List Token × Bool) (Option OsString) where
  emitted := Prod.fst
  isShutDown := Prod.snd
  entered := id

theorem tokenWriter_emits : EmitsTokens tokenWriter tokenView where
  openNar w := ⟨_, rfl, rfl, rfl⟩
  directory w := ⟨none, _, rfl, rfl, rfl, rfl⟩
  entry last name w later := by
    refine ⟨some name, (w.1 ++ (endEntry last ++ Nar.openEntry name), w.2), ?_, rfl, rfl, rfl⟩
    have increasing : ∀ before ∈ last, before < name := later
    show Effect.Returns (if _ then _ else _) _ _ _
    rw [if_pos increasing]
    rfl
  close last w := ⟨_, rfl, rfl, rfl⟩
  symlink target w := ⟨_, rfl, rfl, rfl⟩
  file executable contents w := by
    refine ⟨(w.1 ++ Nar.leafTokens (.regular executable contents), w.2), ?_, rfl, rfl⟩
    show Effect.Returns (if _ then _ else _) _ _ _
    rw [if_pos rfl]
    rfl
  shutdown w := ⟨_, rfl, rfl, rfl⟩

/-- A file system that lists directories backwards. -/
def FileSystem.reversed (root : Path) (tree : DirTree OsString FileNode) (unique : tree.Unique) :
    FileSystem where
  root := root
  tree := tree
  unique := unique
  listing path :=
    match tree.find path with
    | some (.directory entries) => (entries.map Prod.fst).reverse
    | _ => []
  lists path entries here := by
    rw [here]
    exact List.reverse_perm _

/-- A program in a directory of its own, and a symbolic link to it. -/
def exampleTree : DirTree OsString FileNode :=
  .directory
    [(utf8 "bin", .directory [(utf8 "hello", .leaf (.file 0o555 [1, 2, 3]))]),
      (utf8 "run", .leaf (.symlink (utf8 "bin/hello")))]

theorem exampleTree_unique : exampleTree.Unique := by
  refine .directory (by decide +kernel) ?_
  intro entry member
  rcases List.mem_cons.mp member with rfl | member
  · refine .directory (by decide +kernel) fun entry member => ?_
    rw [List.mem_singleton.mp member]
    exact .leaf
  · rw [List.mem_singleton.mp member]
    exact .leaf

theorem nar_canonical_hello :
    Serialised tokenWriter (fun _ => "") (.reversed [utf8 "nix", utf8 "store"] exampleTree
      exampleTree_unique) tokenView :=
  nar_canonical tokenWriter (fun _ => "") tokenWriter_emits _

end NixStore

end CacheAction
