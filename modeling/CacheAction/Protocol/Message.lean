import CacheAction.Foundations.Utf8

/-!
# Messages of the daemon's wire protocol

`push` and `stop` talk to the daemon over a Unix domain socket.  Store paths
are separated by newlines, and a null byte tells the daemon to stop:

```text
push:  /nix/store/abc-foo\n/nix/store/def-bar\n
stop: \0
```

A store path is a store directory followed by a basename.  The directory type
`StoreDir` belongs to the daemon; the basename type is the one of `nix_types`
and enters as a parameter, with its printer and its parser (`BasenameCodec`).
`BasenameCodec.Lawful` collects what the wire format relies on.

The text of a path is what it prints, and a path is parsed from it at its *last* slash.  That is
the right one because a basename has none; a directory may have as many as it likes, and also
newlines, which the protocol has no way to write (`CacheAction.Protocol.RoundTrip`).  Which
paths can occur at all is `StorePath.Accepted`: those that come of some text.
-/

namespace CacheAction

/-- The separator of store paths on the wire, `b'\n'`. -/
def pathSeparator : UInt8 := 10

/-- The byte that tells the daemon to stop, `b'\0'`. -/
def stopSentinel : UInt8 := 0

/-! ## Store directories -/

/-- A string without NUL characters. -/
structure NulFreeString where
  str : String
  nulFree : '\x00' ∉ str.toList
  deriving DecidableEq

/-- `NixStoreLiteral::STR`. -/
def nixStoreLiteral : String := "/nix/store"

/-- A store directory: `/nix/store` or any other, which then has no NUL. -/
inductive StoreDir where
  | nixStore
  | other (dir : NulFreeString)
  deriving DecidableEq

/-- `FromBytesWithNulError::InteriorNul`: the offset of the first NUL byte. -/
structure InteriorNul where
  position : ℕ
  deriving DecidableEq, Repr

namespace StoreDir

/-- `fmt::Display for StoreDir`. -/
def display : StoreDir → String
  | nixStore => nixStoreLiteral
  | other dir => dir.str

/-- `FromStr for StoreDir`. -/
def fromStr (s : String) : Except InteriorNul StoreDir :=
  if s = nixStoreLiteral then .ok nixStore
  else if h : '\x00' ∈ s.toList then .error ⟨(utf8 s).idxOf 0⟩
  else .ok (other ⟨s, h⟩)

/-- A directory prints as the string it was parsed from. -/
theorem display_of_fromStr {s : String} {dir : StoreDir} (h : fromStr s = .ok dir) :
    dir.display = s := by
  unfold fromStr at h
  split_ifs at h with literal nul
  · cases h
    exact literal.symm
  · cases h
    rfl

/-- An accepted directory is what its printed form parses to. -/
theorem fromStr_display {s : String} {dir : StoreDir} (h : fromStr s = .ok dir) :
    fromStr dir.display = .ok dir := by
  rw [display_of_fromStr h, h]

end StoreDir

/-! ## Store paths -/

/-- The printer and the parser of `nix_types::StoreBasename`. -/
structure BasenameCodec (B : Type) (E : Type) where
  display : B → String
  fromStr : String → Except E B

/-- What the wire format relies on: a basename is parsed back from its printed
form, and no accepted basename has a slash, a NUL or a newline in it. -/
structure BasenameCodec.Lawful {B E : Type} (codec : BasenameCodec B E) : Prop where
  fromStr_display : ∀ b, codec.fromStr (codec.display b) = .ok b
  clean : ∀ s b, codec.fromStr s = .ok b →
    '/' ∉ s.toList ∧ '\x00' ∉ s.toList ∧ '\n' ∉ s.toList

/-- `StorePath<StoreDir>`. -/
structure StorePath (B : Type) where
  storeDir : StoreDir
  basename : B
  deriving DecidableEq

/-- Why a string is not a store path. -/
inductive StorePathError (E : Type) where
  | missingSlash
  | storeDir (error : InteriorNul)
  | basename (error : E)
  deriving DecidableEq

/-- Split at the last occurrence of `sep`. -/
def rsplitOnce (sep : Char) : List Char → Option (List Char × List Char)
  | [] => none
  | c :: rest =>
      match rsplitOnce sep rest with
      | some (before, after) => some (c :: before, after)
      | none => if c = sep then some ([], rest) else none

theorem rsplitOnce_eq_none {sep : Char} {cs : List Char} (absent : sep ∉ cs) :
    rsplitOnce sep cs = none := by
  induction cs with
  | nil => rfl
  | cons c rest ih =>
      have hrest : sep ∉ rest := fun h => absent (List.mem_cons_of_mem c h)
      have hc : c ≠ sep := fun h => absent (by simp [h])
      simp [rsplitOnce, ih hrest, hc]

/-- The last separator is the one with none after it. -/
theorem rsplitOnce_append {sep : Char} {before after : List Char} (absent : sep ∉ after) :
    rsplitOnce sep (before ++ sep :: after) = some (before, after) := by
  induction before with
  | nil => simp [rsplitOnce, rsplitOnce_eq_none absent]
  | cons c rest ih => simp [rsplitOnce, ih]

theorem append_of_rsplitOnce {sep : Char} {cs before after : List Char}
    (h : rsplitOnce sep cs = some (before, after)) : cs = before ++ sep :: after := by
  induction cs generalizing before with
  | nil => cases h
  | cons c rest ih =>
      unfold rsplitOnce at h
      cases split : rsplitOnce sep rest with
      | some parts =>
          obtain ⟨before', after'⟩ := parts
          simp only [split, Option.some.injEq, Prod.mk.injEq] at h
          obtain ⟨rfl, rfl⟩ := h
          rw [ih split, List.cons_append]
      | none =>
          simp only [split] at h
          split_ifs at h with hc
          cases h
          rw [hc, List.nil_append]

namespace StorePath

variable {B E : Type} (codec : BasenameCodec B E)

/-- `Display`: the directory, a slash, the basename. -/
def display (path : StorePath B) : String :=
  path.storeDir.display ++ "/" ++ codec.display path.basename

/-- `FromStr`: split at the last slash, parse the two parts. -/
def fromStr (s : String) : Except (StorePathError E) (StorePath B) :=
  match rsplitOnce '/' s.toList with
  | none => .error .missingSlash
  | some (dir, base) =>
      match StoreDir.fromStr (String.ofList dir) with
      | .error e => .error (.storeDir e)
      | .ok storeDir =>
          match codec.fromStr (String.ofList base) with
          | .error e => .error (.basename e)
          | .ok basename => .ok { storeDir, basename }

variable {codec}

/-- The parts of an accepted string. -/
theorem fromStr_eq_ok {s : String} {path : StorePath B} (h : fromStr codec s = .ok path) :
    ∃ dir base, s = dir ++ "/" ++ base ∧ StoreDir.fromStr dir = .ok path.storeDir ∧
      codec.fromStr base = .ok path.basename := by
  unfold fromStr at h
  cases split : rsplitOnce '/' s.toList with
  | none => simp [split] at h
  | some parts =>
      obtain ⟨dir, base⟩ := parts
      simp only [split] at h
      cases hdir : StoreDir.fromStr (String.ofList dir) with
      | error e => simp [hdir] at h
      | ok storeDir =>
          cases hbase : codec.fromStr (String.ofList base) with
          | error e => simp [hdir, hbase] at h
          | ok basename =>
              simp only [hdir, hbase, Except.ok.injEq] at h
              subst h
              refine ⟨String.ofList dir, String.ofList base, ?_, hdir, hbase⟩
              apply String.ext
              rw [append_of_rsplitOnce split]
              simp

/-- **A store path is parsed back from its printed form**, for every path whose
directory the parser accepts. -/
theorem fromStr_display (lawful : codec.Lawful) {path : StorePath B} {s : String}
    (accepted : fromStr codec s = .ok path) :
    fromStr codec (path.display codec) = .ok path := by
  obtain ⟨dir, base, -, hdir, hbase⟩ := fromStr_eq_ok accepted
  have hback := lawful.fromStr_display path.basename
  have noSlash := (lawful.clean _ _ hback).1
  have split : rsplitOnce '/' (path.display codec).toList =
      some (path.storeDir.display.toList, (codec.display path.basename).toList) := by
    rw [← rsplitOnce_append noSlash]
    simp [display]
  unfold fromStr
  rw [split]
  simp [StoreDir.fromStr_display hdir, hback]

/-- A path parsed from a string without newlines prints without newlines. -/
theorem newline_notMem_display (lawful : codec.Lawful) {path : StorePath B} {s : String}
    (accepted : fromStr codec s = .ok path) (noNewline : '\n' ∉ s.toList) :
    '\n' ∉ (path.display codec).toList := by
  obtain ⟨dir, base, rfl, hdir, -⟩ := fromStr_eq_ok accepted
  have hbase := (lawful.clean _ _ (lawful.fromStr_display path.basename)).2.2
  have hdisplay := StoreDir.display_of_fromStr hdir
  simp only [String.toList_append, List.mem_append, not_or] at noNewline
  simp only [display, hdisplay, String.toList_append, List.mem_append, not_or]
  exact ⟨noNewline.1, hbase⟩

/-- No store path prints with a NUL. -/
theorem nul_notMem_display (lawful : codec.Lawful) (path : StorePath B) :
    '\x00' ∉ (path.display codec).toList := by
  have hbase := (lawful.clean _ _ (lawful.fromStr_display path.basename)).2.1
  have hdir : '\x00' ∉ path.storeDir.display.toList := by
    cases path.storeDir with
    | nixStore => decide
    | other dir => exact dir.nulFree
  simp only [display, String.toList_append, List.mem_append, not_or]
  exact ⟨⟨hdir, by decide⟩, hbase⟩

end StorePath

/-! ## Messages -/

/-- The two messages of the protocol. -/
inductive Message (P : Type) where
  | pushStorePath (path : P)
  | stopDaemon
  deriving DecidableEq

/-- The bytes `Sender::start_send` appends to the buffer for a message. -/
def Message.encode {P : Type} (display : P → String) : Message P → List UInt8
  | pushStorePath path => utf8 (display path) ++ [pathSeparator]
  | stopDaemon => [stopSentinel]

end CacheAction
