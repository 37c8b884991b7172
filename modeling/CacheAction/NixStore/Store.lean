import CacheAction.Foundations.NarBytes
import CacheAction.Foundations.Visit
import CacheAction.NixStore.WriteNar
import CacheAction.Protocol.Message
import CacheAction.StorePath.StoredNar

/-!
# The Nix store of the daemon

`NixStore` answers for `context::Nix`.  Closures and infos come from `libnixstore` through
the crate `nixb`, whose store paths and infos are opaque; it passes collections to
callbacks.  `nix_types` has the parsers.  Both are parameters.

`storeClosure_eq_ok` and `storeClosure_eq_error` say which closure comes of it, and
`records_of_describes` which infos.  `nixStore` is the store that this makes, and
`writeNar_nar` says that `write_nar` writes the NARs of that store.

### Callbacks that can fail

`get_fs_closure` hands out the paths of a closure one by one, to a closure that cannot return
an error of its own.  `store_closure` therefore remembers the first failure and ignores the
paths that follow; when the traversal is over, an error of the traversal itself comes first,
and then the one that was remembered.  The callbacks of `references` and `signatures` break off
at their first failure.  These are the two collectors of `CacheAction.Foundations.Visit`, and
each of the three functions is one of them applied to what it does with one element.

A path goes through text on its way: `parse_path` gets what a store path prints, with its
directory, as a C string, and what Nix returns has a hash and a name from which a basename is
put together and parsed again.  The directory is that of the path that was asked for.
-/

namespace CacheAction

namespace NixStore

open HandleStorePath

/-- The calls of `nixb`, with store paths `N`, infos `I`, hashes `H` and errors `E`.  Only what
the daemon calls is here.  A call that takes a callback is a `Visit`: the elements that the
callback is given, in order, and what the call returns when it has not been broken off. -/
structure Nixb (N I H E : Type) where
  /-- `Store::parse_path`, of a C string. -/
  parsePath : List UInt8 → Except E N
  hash : N → Except E H
  name : N → String
  getFsClosure : N → Visit N E
  queryPathInfo : N → Except E I
  ca : I → Except E (Option String)
  deriver : I → Except E (Option N)
  references : I → Visit N E
  sigs : I → Visit (List UInt8) E
  /-- `Error::from_message`. -/
  fromMessage : String → E

/-- The parsers of `nix_types`.  Errors are seen as what they print, and so are content
addresses and signatures, since a NARInfo does nothing with them but print them. -/
structure NixTypes (H M B : Type) where
  storeName : String → Except String M
  /-- `StoreBasename { hash: Nix32Digest::new(hash), name }`. -/
  storeBasename : H → M → B
  contentAddress : String → Except String String
  signature : String → Except String String

/-- Texts of the standard library: `{:?}` and `String::from_utf8_lossy`. -/
structure Texts where
  debug : String → String
  fromUtf8Lossy : List UInt8 → String

variable {N I H M B E ϱ : Type} (nixb : Nixb N I H E) (types : NixTypes H M B) (texts : Texts)
  (codec : BasenameCodec B ϱ)

/-! ## The program -/

/-- The bytes that `parse_path` passes to `CStr::from_bytes_with_nul_unchecked`. -/
def cStr (storePath : StorePath B) : List UInt8 :=
  utf8 (storePath.display codec) ++ [0]

/-- `NixStore::parse_path`. -/
def parsePath (storePath : StorePath B) : Except E N :=
  nixb.parsePath (cStr codec storePath)

/-- `StorePathExt::basename`. -/
def basename (path : N) : Except E B := do
  let hash ← nixb.hash path
  match types.storeName (nixb.name path) with
  | .ok name => return types.storeBasename hash name
  | .error err =>
      throw (nixb.fromMessage ("couldn't parse " ++ texts.debug (nixb.name path) ++
        " into a store name: " ++ err))

/-- The closure `push_path` of `store_closure`.  It has no way to break the traversal off, so after
an error it is called on and does nothing. -/
def pushPath (storeDir : StoreDir) (res : Except E (List (StorePath B))) (path : N) :
    Except E (List (StorePath B)) :=
  match res with
  | .error e => .error e
  | .ok paths =>
      match basename nixb types texts path with
      | .ok basename => .ok (paths ++ [{ storeDir, basename }])
      | .error err => .error err

/-- `NixStore::store_closure`.  The `?` after `get_fs_closure` comes before the result of the
callback is looked at. -/
def storeClosure (storePath : StorePath B) : Except E (List (StorePath B)) := do
  let path ← parsePath nixb codec storePath
  let res ← (nixb.getFsClosure path).forEach (pushPath nixb types texts storePath.storeDir)
    (.ok [])
  res

/-- `signature_from_bytes`. -/
def signatureFromBytes (bytes : List UInt8) : Except E String :=
  match fromUtf8 bytes with
  | none => .error (nixb.fromMessage ("signature is not valid UTF-8: " ++
      texts.debug (texts.fromUtf8Lossy bytes)))
  | some sigStr =>
      match types.signature sigStr with
      | .ok signature => .ok signature
      | .error err => .error (nixb.fromMessage ("couldn't parse " ++ texts.debug sigStr ++
          " into signature: " ++ err))

/-- `StorePathInfos::references`.  Here the callback says whether it wants to go on. -/
def references (info : I) : Except E (List B) := do
  let visited ← (nixb.references info).tryForEach (fun references path =>
    match basename nixb types texts path with
    | .ok basename => (references ++ [basename], .proceed)
    | .error err => (references, .stop err)) []
  match visited with
  | (references, .proceed) => .ok references
  | (_, .stop err) => .error err

/-- `StorePathInfos::signatures`. -/
def signatures (info : I) : Except E (List String) := do
  let visited ← (nixb.sigs info).tryForEach (fun signatures bytes =>
    match signatureFromBytes nixb types texts bytes with
    | .ok signature => (signatures ++ [signature], .proceed)
    | .error err => (signatures, .stop err)) []
  match visited with
  | (signatures, .proceed) => .ok signatures
  | (_, .stop err) => .error err

/-- `StorePathInfos::deriver`. -/
def deriver (info : I) : Except E (Option B) := do
  match ← nixb.deriver info with
  | none => return none
  | some path => return some (← basename nixb types texts path)

/-- `StorePathInfos::content_address`. -/
def contentAddress (info : I) : Except E (Option String) := do
  match ← nixb.ca info with
  | none => return none
  | some ca =>
      match types.contentAddress ca with
      | .ok contentAddress => return some contentAddress
      | .error err => throw (nixb.fromMessage ("couldn't parse " ++ texts.debug ca ++
          " into a CA: " ++ err))

/-- `NixStore::get_path_infos`, with the four parts that can be asked for.  In the source they are
methods, called one after the other; each has its own error, so nothing is lost by evaluating
them all here. -/
def getPathInfos (storePath : StorePath B) : Except E (PathInfos E) := do
  let path ← parsePath nixb codec storePath
  let info ← nixb.queryPathInfo path
  return { references := (references nixb types texts info).map (List.map codec.display)
           deriver := (deriver nixb types texts info).map (Option.map codec.display)
           signatures := signatures nixb types texts info
           contentAddress := contentAddress nixb types texts info }

/-! ## What comes of the callbacks -/

variable {nixb types texts codec}

/-- **A string for `parse_path` has a NUL at its end and nowhere else.** -/
theorem cStr_nul (lawful : codec.Lawful) (storePath : StorePath B) :
    ∃ bytes, cStr codec storePath = bytes ++ [0] ∧ 0 ∉ bytes := by
  refine ⟨utf8 (storePath.display codec), rfl, fun nul => ?_⟩
  exact StorePath.nul_notMem_display lawful storePath
    ((mem_utf8_of_ascii (by decide) (by decide)).mp nul)

/-- Nix is told the basename: paths with the same string have the same one.  The last slash of the
string is the one before the basename, which has none. -/
theorem basename_of_cStr (lawful : codec.Lawful) {path path' : StorePath B}
    (same : cStr codec path = cStr codec path') : path.basename = path'.basename := by
  have split (p : StorePath B) : rsplitOnce '/' (p.display codec).toList =
      some (p.storeDir.display.toList, (codec.display p.basename).toList) := by
    have noSlash := (lawful.clean _ _ (lawful.fromStr_display p.basename)).1
    rw [← rsplitOnce_append noSlash]
    simp [StorePath.display]
  have bytes : utf8 (path.display codec) = utf8 (path'.display codec) :=
    List.append_cancel_right same
  have text : path.display codec = path'.display codec := by
    have decoded := congrArg fromUtf8 bytes
    rw [fromUtf8_utf8, fromUtf8_utf8] at decoded
    exact Option.some.inj decoded
  have parts := (split path).symm.trans (text ▸ split path')
  simp only [Option.some.injEq, Prod.mk.injEq, String.toList_inj] at parts
  have printed := lawful.fromStr_display path.basename
  rw [parts.2, lawful.fromStr_display] at printed
  exact (Except.ok.inj printed).symm

/-- A sequence of calls succeeds if every one of them does, -/
theorem bind_eq_ok {α β : Type} {x : Except E α} {f : α → Except E β} {b : β} :
    x.bind f = .ok b ↔ ∃ a, x = .ok a ∧ f a = .ok b := by
  cases x with
  | error e => exact ⟨by rintro ⟨⟩, by rintro ⟨a, ⟨⟩, -⟩⟩
  | ok a =>
      constructor
      · exact fun h => ⟨a, rfl, h⟩
      · rintro ⟨_, ⟨⟩, h⟩
        exact h

/-- and fails with the error of the first one that does not. -/
theorem bind_eq_error {α β : Type} {x : Except E α} {f : α → Except E β} {e : E} :
    x.bind f = .error e ↔ x = .error e ∨ ∃ a, x = .ok a ∧ f a = .error e := by
  cases x with
  | error e' =>
      constructor
      · rintro ⟨⟩
        exact .inl rfl
      · rintro (⟨⟨⟩⟩ | ⟨a, ⟨⟩, -⟩)
        rfl
  | ok a =>
      constructor
      · exact fun h => .inr ⟨a, rfl, h⟩
      · rintro (⟨⟨⟩⟩ | ⟨_, ⟨⟩, h⟩)
        exact h

section Closures

/-- What a path in the closure becomes. -/
def inStoreDir (nixb : Nixb N I H E) (types : NixTypes H M B) (texts : Texts)
    (storeDir : StoreDir) (path : N) : Except E (StorePath B) :=
  (basename nixb types texts path).map fun basename => { storeDir, basename }

theorem inStoreDir_eq_ok {storeDir : StoreDir} {path : N} {storePath : StorePath B} :
    inStoreDir nixb types texts storeDir path = .ok storePath ↔
      storePath.storeDir = storeDir ∧
        basename nixb types texts path = .ok storePath.basename := by
  unfold inStoreDir
  cases basename nixb types texts path with
  | error e => exact ⟨by rintro ⟨⟩, by rintro ⟨-, ⟨⟩⟩⟩
  | ok base =>
      constructor
      · rintro ⟨⟩
        exact ⟨rfl, rfl⟩
      · obtain ⟨dir, base'⟩ := storePath
        rintro ⟨rfl, ⟨⟩⟩
        rfl

theorem inStoreDir_eq_error {storeDir : StoreDir} {path : N} {e : E} :
    inStoreDir nixb types texts storeDir path = .error e ↔
      basename nixb types texts path = .error e := by
  unfold inStoreDir
  cases basename nixb types texts path with
  | error e' => exact ⟨by rintro ⟨⟩; rfl, by rintro ⟨⟩; rfl⟩
  | ok base => exact ⟨by rintro ⟨⟩, by rintro ⟨⟩⟩

/-- The callback of `store_closure` is the collector that cannot break off. -/
theorem pushPath_eq_collect (storeDir : StoreDir) :
    pushPath nixb types texts storeDir = collect (inStoreDir nixb types texts storeDir) := by
  funext res path
  rcases res with e | paths
  · rfl
  · rw [pushPath, collect, inStoreDir]
    cases basename nixb types texts path <;> rfl

/-- What is left of `store_closure` when the callback is gone: three calls in a row, of which the
last one goes over the paths that have been visited. -/
theorem storeClosure_eq (storePath : StorePath B) :
    storeClosure nixb types texts codec storePath =
      (parsePath nixb codec storePath).bind fun path =>
        (nixb.getFsClosure path).result.bind fun _ =>
          (nixb.getFsClosure path).elements.mapM
            (inStoreDir nixb types texts storePath.storeDir) := by
  unfold storeClosure
  rw [pushPath_eq_collect]
  cases parsePath nixb codec storePath with
  | error e => rfl
  | ok path => exact forEach_collect _ (nixb.getFsClosure path)

/-- **The closure is what `nixb` visits**, below the directory of the path. -/
theorem storeClosure_eq_ok {storePath : StorePath B} {paths : List (StorePath B)} :
    storeClosure nixb types texts codec storePath = .ok paths ↔
      ∃ path, parsePath nixb codec storePath = .ok path ∧
        (nixb.getFsClosure path).result = .ok () ∧
        List.Forall₂ (fun visited storePath' => storePath'.storeDir = storePath.storeDir ∧
            basename nixb types texts visited = .ok storePath'.basename)
          (nixb.getFsClosure path).elements paths := by
  simp only [storeClosure_eq, bind_eq_ok, mapM_eq_ok, inStoreDir_eq_ok]
  refine exists_congr fun path => and_congr_right fun _ => ?_
  exact ⟨fun ⟨_, result, all⟩ => ⟨result, all⟩, fun ⟨result, all⟩ => ⟨(), result, all⟩⟩

/-- The first call for the closure of a path that fails.  The paths that are visited come
last, although they are visited before `get_fs_closure` returns. -/
inductive ClosureError (nixb : Nixb N I H E) (types : NixTypes H M B) (texts : Texts)
    (codec : BasenameCodec B ϱ) (storePath : StorePath B) (e : E) : Prop
  | parsePath (fails : parsePath nixb codec storePath = .error e)
  | getFsClosure (path : N) (parsed : parsePath nixb codec storePath = .ok path)
      (fails : (nixb.getFsClosure path).result = .error e)
  | basename (path : N) (parsed : parsePath nixb codec storePath = .ok path)
      (returned : (nixb.getFsClosure path).result = .ok ()) (before : List N) (bad : N)
      (after : List N) (visited : (nixb.getFsClosure path).elements = before ++ bad :: after)
      (fine : ∀ visited ∈ before, ∃ base, basename nixb types texts visited = .ok base)
      (fails : basename nixb types texts bad = .error e)

/-- **An error is the one of the first call that fails.** -/
theorem storeClosure_eq_error {storePath : StorePath B} {e : E} :
    storeClosure nixb types texts codec storePath = .error e ↔
      ClosureError nixb types texts codec storePath e := by
  simp only [storeClosure_eq, bind_eq_error, mapM_eq_error, inStoreDir_eq_ok,
    inStoreDir_eq_error]
  constructor
  · rintro (fails | ⟨path, parsed, fails | ⟨⟨⟩, returned, before, bad, after, visited, fine,
      fails⟩⟩)
    · exact .parsePath fails
    · exact .getFsClosure path parsed fails
    · refine .basename path parsed returned before bad after visited (fun v member => ?_) fails
      obtain ⟨storePath', -, ok⟩ := fine v member
      exact ⟨_, ok⟩
  · intro failure
    cases failure with
    | parsePath fails => exact .inl fails
    | getFsClosure path parsed fails => exact .inr ⟨path, parsed, .inl fails⟩
    | basename path parsed returned before bad after visited fine fails =>
        refine .inr ⟨path, parsed, .inr ⟨(), returned, before, bad, after, visited,
          fun v member => ?_, fails⟩⟩
        obtain ⟨base, ok⟩ := fine v member
        exact ⟨⟨storePath.storeDir, base⟩, rfl, ok⟩

end Closures

/-! ## Infos -/

section Infos

variable {info : I}

/-- Where both the elements and the library succeed. -/
theorem tryForEach_eq_ok {α β : Type} {g : α → Except E β} {visit : Visit α E} {bs : List β} :
    (visit.tryForEach (collectWhile g) []).bind collected = .ok bs ↔
      List.Forall₂ (fun a b => g a = .ok b) visit.elements bs ∧ visit.result = .ok () := by
  rw [tryForEach_collectWhile, ← mapM_eq_ok]
  cases visit.elements.mapM g with
  | error e => exact ⟨by rintro ⟨⟩, by rintro ⟨⟨⟩, -⟩⟩
  | ok bs' =>
      cases visit.result with
      | error e => exact ⟨by rintro ⟨⟩, by rintro ⟨-, ⟨⟩⟩⟩
      | ok _ => exact ⟨fun h => ⟨h, rfl⟩, And.left⟩

/-- References are read path by path, without a directory. -/
theorem references_eq_ok {bases : List B} :
    references nixb types texts info = .ok bases ↔
      List.Forall₂ (fun visited base => basename nixb types texts visited = .ok base)
          (nixb.references info).elements bases ∧
        (nixb.references info).result = .ok () := by
  rw [← tryForEach_eq_ok]
  rfl

/-- Signatures are read one by one. -/
theorem signatures_eq_ok {sigs : List String} :
    signatures nixb types texts info = .ok sigs ↔
      List.Forall₂ (fun bytes sig => signatureFromBytes nixb types texts bytes = .ok sig)
          (nixb.sigs info).elements sigs ∧
        (nixb.sigs info).result = .ok () := by
  have callback : (fun signatures bytes =>
      match signatureFromBytes nixb types texts bytes with
      | .ok signature => (signatures ++ [signature], .proceed)
      | .error err => (signatures, .stop err)) =
      collectWhile (signatureFromBytes nixb types texts) := by
    funext signatures bytes
    rw [collectWhile]
    cases signatureFromBytes nixb types texts bytes <;> rfl
  rw [← tryForEach_eq_ok, signatures, callback]
  cases (nixb.sigs info).tryForEach (collectWhile (signatureFromBytes nixb types texts)) [] with
  | error e => exact Iff.rfl
  | ok visited => rcases visited with ⟨signatures, _ | err⟩ <;> exact Iff.rfl

/-- A signature is read from its text. -/
theorem signatureFromBytes_eq_ok {bytes : List UInt8} {sig : String} :
    signatureFromBytes nixb types texts bytes = .ok sig ↔
      ∃ text, bytes = utf8 text ∧ types.signature text = .ok sig := by
  unfold signatureFromBytes
  cases decoded : fromUtf8 bytes with
  | none =>
      refine ⟨by rintro ⟨⟩, ?_⟩
      rintro ⟨text, rfl, -⟩
      rw [fromUtf8_utf8] at decoded
      cases decoded
  | some text =>
      obtain rfl := utf8_of_fromUtf8 decoded
      constructor
      · intro h
        refine ⟨text, rfl, ?_⟩
        cases parsed : types.signature text with
        | error err =>
            simp only [parsed] at h
            cases h
        | ok sig' =>
            simp only [parsed] at h
            cases h
            rfl
      · rintro ⟨text', same, parsed⟩
        rw [same, fromUtf8_utf8] at decoded
        cases decoded
        simp only [parsed]

/-- A deriver is read if there is one. -/
theorem deriver_eq_ok {base : Option B} :
    deriver nixb types texts info = .ok base ↔
      ∃ path, nixb.deriver info = .ok path ∧
        Option.Rel (fun visited base => basename nixb types texts visited = .ok base) path
          base := by
  unfold deriver
  cases nixb.deriver info with
  | error e => exact ⟨by rintro ⟨⟩, by rintro ⟨path, ⟨⟩, -⟩⟩
  | ok path =>
      cases path with
      | none =>
          constructor
          · rintro ⟨⟩
            exact ⟨none, rfl, .none⟩
          · rintro ⟨_, ⟨⟩, ⟨⟩⟩
            rfl
      | some visited =>
          constructor
          · intro h
            have read : (basename nixb types texts visited).bind (fun base => .ok (some base)) =
                .ok base := h
            obtain ⟨found, ok, rest⟩ := bind_eq_ok.mp read
            cases rest
            exact ⟨_, rfl, .some ok⟩
          · rintro ⟨_, ⟨⟩, ok⟩
            cases ok with
            | @some _ found ok =>
                show (basename nixb types texts visited).bind (fun base => .ok (some base)) = _
                rw [ok]
                rfl

/-- A content address is read if there is one. -/
theorem contentAddress_eq_ok {address : Option String} :
    contentAddress nixb types texts info = .ok address ↔
      ∃ ca, nixb.ca info = .ok ca ∧
        Option.Rel (fun text address => types.contentAddress text = .ok address) ca address := by
  unfold contentAddress
  cases nixb.ca info with
  | error e => exact ⟨by rintro ⟨⟩, by rintro ⟨ca, ⟨⟩, -⟩⟩
  | ok ca =>
      cases ca with
      | none =>
          constructor
          · rintro ⟨⟩
            exact ⟨none, rfl, .none⟩
          · rintro ⟨_, ⟨⟩, ⟨⟩⟩
            rfl
      | some text =>
          show (match types.contentAddress text with | .ok _ => _ | .error _ => _) = _ ↔ _
          cases parsed : types.contentAddress text with
          | error err =>
              refine ⟨by rintro ⟨⟩, ?_⟩
              rintro ⟨_, ⟨⟩, ok⟩
              cases ok with
              | some ok =>
                  rw [parsed] at ok
                  cases ok
          | ok address' =>
              constructor
              · rintro ⟨⟩
                exact ⟨_, rfl, .some parsed⟩
              · rintro ⟨_, ⟨⟩, ok⟩
                cases ok with
                | some ok =>
                    rw [parsed] at ok
                    cases ok
                    rfl

end Infos

/-! ## NARs -/

/-- The NAR of a tree, as bytes; `none` if there is a node that a NAR cannot store. -/
def FileSystem.nar (fs : FileSystem) : Option (List UInt8) :=
  (fs.tree.canonical FileNode.narLeaf).map Nar.encode

/-- **`write_nar` writes the NAR of the tree**, or it fails and does not shut the writer
down.  The writer stores its tokens as a NAR does. -/
theorem writeNar_nar {W D : Type} {writer : NarWriter W D} {display : Path → String}
    {view : WriterView W D} {bytes : W → List UInt8} (emits : EmitsTokens writer view)
    (framed : ∀ w, bytes w = (view.emitted w).flatMap Nar.frame) (fs : FileSystem) :
    ∃ depth, ∀ fuel, depth ≤ fuel → ∀ w,
      (∀ nar ∈ fs.nar, ∃ w', (writeNar writer display fs fuel).Returns w () w' ∧
        bytes w' = bytes w ++ nar ∧ view.isShutDown w' = true) ∧
      (fs.nar = none → ∃ e w', (writeNar writer display fs fuel).Fails w e w' ∧
        view.isShutDown w' = view.isShutDown w) := by
  have walk : ∃ depth, ∀ fuel, depth ≤ fuel →
      fs.Writes display view (fs.writeNar writer display fuel (fs.root ++ []))
        (fs.tree.canonical FileNode.narLeaf) :=
    FileSystem.writeNar_writes emits fs.tree [] (DirTree.find_nil fs.tree)
  rw [List.append_nil] at walk
  obtain ⟨depth, enough⟩ := walk
  refine ⟨depth, fun fuel more w => ⟨fun nar hnar => ?_, fun unstored => ?_⟩⟩
  · obtain ⟨node, canonical, rfl⟩ := Option.map_eq_some_iff.mp hnar
    obtain ⟨w', returns, emitted, shutDown⟩ :=
      writeNar_returns emits (canonical ▸ enough fuel more) w
    refine ⟨w', returns, ?_, shutDown⟩
    rw [framed, framed, emitted, List.flatMap_append, Nar.encode]
  · obtain ⟨e, w', fails, -, still⟩ :=
      writeNar_fails emits (Option.map_eq_none_iff.mp unstored ▸ enough fuel more) w
    exact ⟨e, w', fails, still⟩

/-- The bytes are a NAR with the same nodes at the same paths as the tree. -/
def StoresTree (fs : FileSystem) (bytes : List UInt8) : Prop :=
  ∃ nar, Nar.decode bytes = some nar ∧ nar.Ordered ∧
    ∀ path, nar.find path = (fs.tree.find path).bind (DirTree.canonical FileNode.narLeaf)

/-- The NAR of a tree stores the tree, if no length in it is too long for its eight bytes. -/
theorem FileSystem.storesTree {fs : FileSystem} {bytes : List UInt8} (nar : fs.nar = some bytes)
    (fits : bytes.length < 256 ^ 8) : StoresTree fs bytes := by
  obtain ⟨node, canonical, rfl⟩ := Option.map_eq_some_iff.mp nar
  have ordered : node.Ordered := DirTree.canonical_ordered fs.unique canonical
  exact ⟨node, Nar.decode_encode ordered fits, ordered,
    DirTree.find_canonical fs.unique canonical⟩

/-! ## The store -/

/-- The store, with the tree of every path. -/
def nixStore (nixb : Nixb N I H E) (types : NixTypes H M B) (texts : Texts)
    (codec : BasenameCodec B ϱ) (files : StorePath B → FileSystem) : Nix (StorePath B) E E where
  storeClosure := storeClosure nixb types texts codec
  nar path := (files path).nar
  pathInfos := getPathInfos nixb types texts codec

/-- The NARInfo has what Nix records of a path.  Every field is compared with what `nixb` has
answered, element by element, through the parser that the field goes through. -/
structure Records (nixb : Nixb N I H E) (types : NixTypes H M B) (texts : Texts)
    (codec : BasenameCodec B ϱ) {δ : Type} (info : I) (narinfo : NarInfo (StorePath B) δ) :
    Prop where
  references : ∃ bases,
    List.Forall₂ (fun visited base => basename nixb types texts visited = .ok base)
      (nixb.references info).elements bases ∧ narinfo.references = bases.map codec.display
  deriver : ∃ path base, nixb.deriver info = .ok path ∧
    Option.Rel (fun visited base => basename nixb types texts visited = .ok base) path base ∧
      narinfo.deriver = base.map codec.display
  signatures : List.Forall₂ (fun bytes sig => ∃ text, bytes = utf8 text ∧
    types.signature text = .ok sig) (nixb.sigs info).elements narinfo.signatures
  contentAddress : ∃ ca, nixb.ca info = .ok ca ∧
    Option.Rel (fun text address => types.contentAddress text = .ok address) ca
      narinfo.contentAddress

section Described

variable {σ δ : Type} {files : StorePath B → FileSystem} {path : StorePath B}
  {fmt : HandleFormats (StorePath B) σ δ E} {narinfo : NarInfo (StorePath B) δ}

theorem map_eq_ok {α β : Type} {x : Except E α} {f : α → β} {b : β} :
    x.map f = .ok b ↔ ∃ a, x = .ok a ∧ f a = b := by
  cases x with
  | error e => exact ⟨by rintro ⟨⟩, by rintro ⟨a, ⟨⟩, -⟩⟩
  | ok a =>
      constructor
      · rintro ⟨⟩
        exact ⟨a, rfl, rfl⟩
      · rintro ⟨_, ⟨⟩, rfl⟩
        rfl

/-- A NARInfo that the store determines has what Nix records. -/
theorem records_of_describes
    (describes : Describes (nixStore nixb types texts codec files) fmt path narinfo) :
    ∃ nixPath info, parsePath nixb codec path = .ok nixPath ∧
      nixb.queryPathInfo nixPath = .ok info ∧
      Records nixb types texts codec info narinfo := by
  obtain ⟨bytes, -, narSize, -, read⟩ := describes
  -- the calls of `get_path_infos`, and then the four parts of the answer
  obtain ⟨infos, gotten, read⟩ := bind_eq_ok.mp read
  obtain ⟨nixPath, parsed, gotten⟩ := bind_eq_ok.mp gotten
  obtain ⟨info, queried, gotten⟩ := bind_eq_ok.mp gotten
  cases gotten
  obtain ⟨refs, gotRefs, read⟩ := bind_eq_ok.mp read
  obtain ⟨drv, gotDrv, read⟩ := bind_eq_ok.mp read
  obtain ⟨sigs, gotSigs, read⟩ := bind_eq_ok.mp read
  obtain ⟨address, gotAddress, read⟩ := bind_eq_ok.mp read
  cases read
  obtain ⟨bases, gotBases, rfl⟩ := map_eq_ok.mp gotRefs
  obtain ⟨base, gotBase, rfl⟩ := map_eq_ok.mp gotDrv
  obtain ⟨visited, derived, same⟩ := deriver_eq_ok.mp gotBase
  refine ⟨nixPath, info, parsed, queried,
    { references := ⟨bases, (references_eq_ok.mp gotBases).1, rfl⟩
      deriver := ⟨visited, base, derived, same, rfl⟩
      signatures := ?_
      contentAddress := contentAddress_eq_ok.mp gotAddress }⟩
  exact (signatures_eq_ok.mp gotSigs).1.imp fun bytes sig read =>
    signatureFromBytes_eq_ok.mp read

end Described

end NixStore

end CacheAction
