import CacheAction.Foundations.Nar

/-!
# The file system of a store path

A store path is the root of a tree of directories, symbolic links, regular files
and files of other types.  The tree does not change while it is read.  In which
order the entries of a directory are returned is up to the file system
(`listing`).

Paths are sequences of components, and the names in a directory are single
components.

The functions are those of `std::fs` that `write_nar` calls, and they answer from the tree:
metadata are those of a link and not of its target, and a call for a file of the wrong type is
an error.  What the permissions are is of interest for one bit only, which says whether a
regular file is executable.
-/

namespace CacheAction

namespace NixStore

/-- `OsString`, on Unix. -/
abbrev OsString := List UInt8

/-- A path. -/
abbrev Path := List OsString

namespace Path

/-- `PathBuf::push`, of a file name. -/
def push (path : Path) (fileName : OsString) : Path :=
  path ++ [fileName]

/-- `PathBuf::pop`. -/
def pop (path : Path) : Path :=
  path.dropLast

@[simp] theorem pop_push (path : Path) (fileName : OsString) : pop (path.push fileName) = path :=
  List.dropLast_concat

end Path

/-- The file types other than directories, symbolic links and regular files. -/
inductive SpecialFile where
  | fifo
  | socket
  | charDevice
  | blockDevice
  deriving DecidableEq, Repr

/-- A node other than a directory. -/
inductive FileNode where
  | symlink (target : OsString)
  | file (mode : ℕ) (contents : List UInt8)
  | special (fileType : SpecialFile)
  deriving DecidableEq

/-- `io::Error`: an error of the system, or one that was made up. -/
inductive IoError where
  | notFound
  | notADirectory
  | invalidInput
  | invalidData (message : String)
  deriving DecidableEq

/-- `Metadata`: the file type, and of a regular file its mode and its length. -/
inductive Metadata where
  | dir
  | symlink
  | file (mode : ℕ) (len : ℕ)
  | special (fileType : SpecialFile)
  deriving DecidableEq

/-- A tree below `root`, and the order in which its directories are listed. -/
structure FileSystem where
  root : Path
  tree : DirTree OsString FileNode
  unique : tree.Unique
  listing : Path → List OsString
  lists : ∀ path entries, tree.find path = some (.directory entries) →
    (listing path).Perm (entries.map Prod.fst)

namespace FileSystem

variable (fs : FileSystem)

/-- The node at a path. -/
def node (path : Path) : Except IoError (DirTree OsString FileNode) :=
  if fs.root <+: path then
    match fs.tree.find (path.drop fs.root.length) with
    | some node => .ok node
    | none => .error .notFound
  else .error .notFound

/-- `fs::symlink_metadata`. -/
def symlinkMetadata (path : Path) : Except IoError Metadata :=
  (fs.node path).map fun
    | .directory _ => .dir
    | .leaf (.symlink _) => .symlink
    | .leaf (.file mode contents) => .file mode contents.length
    | .leaf (.special fileType) => .special fileType

/-- `fs::read_dir`: the names of the entries, in the order of the listing. -/
def readDir (path : Path) : Except IoError (List OsString) :=
  (fs.node path).bind fun
    | .directory _ => .ok (fs.listing (path.drop fs.root.length))
    | .leaf _ => .error .notADirectory

/-- `fs::read_link`. -/
def readLink (path : Path) : Except IoError OsString :=
  (fs.node path).bind fun
    | .leaf (.symlink target) => .ok target
    | _ => .error .invalidInput

/-- `fs::File::open`, and reading the file. -/
def openFile (path : Path) : Except IoError (List UInt8) :=
  (fs.node path).bind fun
    | .leaf (.file _ contents) => .ok contents
    | _ => .error .invalidInput

/-! ## What is found below the root -/

section Below

variable {fs} {path : Path}

theorem node_below {node : DirTree OsString FileNode} (here : fs.tree.find path = some node) :
    fs.node (fs.root ++ path) = .ok node := by
  rw [FileSystem.node, if_pos (List.prefix_append _ _), List.drop_left, here]

theorem readDir_directory {entries : List (OsString × DirTree OsString FileNode)}
    (here : fs.tree.find path = some (.directory entries)) :
    fs.symlinkMetadata (fs.root ++ path) = .ok .dir ∧
      fs.readDir (fs.root ++ path) = .ok (fs.listing path) := by
  constructor
  · rw [symlinkMetadata, node_below here]
    rfl
  · rw [readDir, node_below here, List.drop_left]
    rfl

theorem readLink_symlink {target : OsString}
    (here : fs.tree.find path = some (.leaf (.symlink target))) :
    fs.symlinkMetadata (fs.root ++ path) = .ok .symlink ∧
      fs.readLink (fs.root ++ path) = .ok target := by
  rw [symlinkMetadata, readLink, node_below here]
  exact ⟨rfl, rfl⟩

theorem openFile_file {mode : ℕ} {contents : List UInt8}
    (here : fs.tree.find path = some (.leaf (.file mode contents))) :
    fs.symlinkMetadata (fs.root ++ path) = .ok (.file mode contents.length) ∧
      fs.openFile (fs.root ++ path) = .ok contents := by
  rw [symlinkMetadata, openFile, node_below here]
  exact ⟨rfl, rfl⟩

theorem symlinkMetadata_special {fileType : SpecialFile}
    (here : fs.tree.find path = some (.leaf (.special fileType))) :
    fs.symlinkMetadata (fs.root ++ path) = .ok (.special fileType) := by
  rw [symlinkMetadata, node_below here]
  rfl

end Below

end FileSystem

end NixStore

end CacheAction
