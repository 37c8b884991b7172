import CacheAction.Daemon.Clients
import CacheAction.NixStore.Store

/-!
# The daemon in front of the Nix store

The store of a daemon is a `NixStore`: closures and infos come from `nixb`, and NARs are
made of the trees of files.

* `published_tree`: the parts that were put before a NARInfo was published make up a NAR
  that is read back to the tree of its path.
* `published_records`: the NARInfo has what Nix records of the path, and the path is one
  that Nix has visited for the closure of a pushed path, below the same directory.
* `pushed_handled`: by the final report every pushed path has been handled itself, or is
  reported with the error that there was.

The earlier results speak of an abstract store.  Here it is the one that `NixStore` makes of the
calls of `nixb`, so that what they say can be said in terms of Nix: of the paths that its
traversal visits, of the infos that it has on record, and of the files below a path.  The first
of these needs the grammar of the format (`CacheAction.Foundations.Nar`), because a list of
bytes that was put is worth something only if it can be read back.
-/

namespace CacheAction

namespace Daemon

open Sub60 HandleStorePath EventLoop NixStore

variable {N I H M B ϱ K ε π σ δ E : Type} [DecidableEq K]
  {parse : String → Except π (StorePath B)} {hash : StorePath B → K}
  {fmt : HandleFormats (StorePath B) σ δ E} {cache : Sub60Cache} {upstreamCaches : List Url}
  {nixb : Nixb N I H E} {types : NixTypes H M B} {texts : Texts} {codec : BasenameCodec B ϱ}
  {files : StorePath B → FileSystem} {is : List (DaemonInput (StorePath B) E ε π E)}
  {d : Daemon (StorePath B) K E ε π σ δ E} {trace : List (DaemonObs (StorePath B) E ε π δ E)}

/-! ## What is published -/

/-- **A published NAR is read back to the tree of its path**: the bytes of the parts that
have been put by then are a NAR, and it has the same nodes at the same paths.

The parts that the server has been sent are the NAR that the store has written
(`StoredNar`), and that is the canonical serialisation of the path's tree.  Its length is
the `nar_size` of the record, hence below `2 ^ 64`, and no length field in it overflows. -/
theorem published_tree
    (follows : (machine parse hash fmt cache upstreamCaches).Follows
      (FromNix hash (nixStore nixb types texts codec files)) init [] is)
    (hrun : (machine parse hash fmt cache upstreamCaches).run init is = some (d, trace))
    {pre post : List (StorePath B × HandleObs (StorePath B) δ)} {path : StorePath B}
    {narinfo : NarInfo (StorePath B) δ} {call : Call}
    (split : taskHistory trace = pre ++ (path, .publish narinfo call) :: post) :
    StoresTree (files path) (bytesPut (handleRequests fmt cache (own hash (hash path) pre))) := by
  obtain ⟨staffed, -⟩ := closures_of_run follows hrun
  have member : (path, .publish narinfo call) ∈ taskHistory trace := by
    rw [split]
    exact List.mem_append_right _ List.mem_cons_self
  obtain ⟨bytes, nar, size⟩ := (staffed.described member).size
  have whole := staffed.stored split
  obtain rfl := Option.some.inj (nar.symm.trans whole)
  -- the size of a NAR is a `u64`
  refine FileSystem.storesTree whole ?_
  rw [← size]
  exact narinfo.narSize.lt

/-- Nix visits the path for the closure of the one that is pushed. -/
def VisitedFor (nixb : Nixb N I H E) (types : NixTypes H M B) (texts : Texts)
    (codec : BasenameCodec B ϱ) (pushed path : StorePath B) : Prop :=
  path.storeDir = pushed.storeDir ∧
    ∃ nixPath, parsePath nixb codec pushed = .ok nixPath ∧
      ∃ visited ∈ (nixb.getFsClosure nixPath).elements,
        NixStore.basename nixb types texts visited = .ok path.basename

/-- A path of a closure is one that Nix has visited for it. -/
theorem visitedFor_of_mem {pushed path : StorePath B} {paths : List (StorePath B)}
    (closure : storeClosure nixb types texts codec pushed = .ok paths) (member : path ∈ paths) :
    VisitedFor nixb types texts codec pushed path := by
  obtain ⟨nixPath, parsed, -, all⟩ := storeClosure_eq_ok.mp closure
  obtain ⟨visited, inside, dir, read⟩ := exists_of_mem_right all member
  exact ⟨dir, nixPath, parsed, visited, inside, read⟩

/-- **A published NARInfo has what Nix records of its path**, and Nix has visited the path
for one that has been pushed.

The record is the one that `query_path_info` has answered for that very path, field by
field (`Records`).  The second half says whose closure the path belongs to: that of a push
which the event loop has received. -/
theorem published_records
    (follows : (machine parse hash fmt cache upstreamCaches).Follows
      (FromNix hash (nixStore nixb types texts codec files)) init [] is)
    (hrun : (machine parse hash fmt cache upstreamCaches).run init is = some (d, trace))
    {path : StorePath B} {narinfo : NarInfo (StorePath B) δ} {call : Call}
    (published : .task path (.publish narinfo call) ∈ trace) :
    (∃ initial, cache.request fmt.toFormats call =
        narinfoRequest fmt cache path initial narinfo) ∧
      (∃ nixPath info, parsePath nixb codec path = .ok nixPath ∧
        nixb.queryPathInfo nixPath = .ok info ∧ Records nixb types texts codec info narinfo) ∧
      ∃ pushed ∈ (eventLedger trace).pushes, VisitedFor nixb types texts codec pushed path := by
  obtain ⟨staffed, known⟩ := closures_of_run follows hrun
  have member := mem_taskHistory.mpr published
  obtain ⟨pushed, received, paths, closure, inside⟩ := known.pushed staffed (staffed.started member)
  exact ⟨staffed.sentRequest published, records_of_describes (staffed.described member), pushed,
    received, visitedFor_of_mem closure inside⟩

/-! ## The pushed paths -/

/-- The closure of a path has the path itself, and Nix has its name from its text. -/
def ClosesOver (nixb : Nixb N I H E) (types : NixTypes H M B) (texts : Texts)
    (codec : BasenameCodec B ϱ) : Prop :=
  ∀ path nixPath, parsePath nixb codec path = .ok nixPath →
    nixPath ∈ (nixb.getFsClosure nixPath).elements ∧
      NixStore.basename nixb types texts nixPath = .ok path.basename

/-- So a path is in its own closure. -/
theorem self_mem_storeClosure (closes : ClosesOver nixb types texts codec) {path : StorePath B}
    {paths : List (StorePath B)} (closure : storeClosure nixb types texts codec path = .ok paths) :
    path ∈ paths := by
  obtain ⟨nixPath, parsed, -, all⟩ := storeClosure_eq_ok.mp closure
  obtain ⟨visited, base⟩ := closes path nixPath parsed
  obtain ⟨path', member, dir, read⟩ := exists_of_mem_left all visited
  rw [base] at read
  have same : path' = path := by
    obtain ⟨storeDir, basename⟩ := path
    obtain ⟨storeDir', basename'⟩ := path'
    cases read
    cases dir
    rfl
  exact same ▸ member

/-- **By the final report every pushed path has been handled**, or it is reported with the
error of the first call to Nix that has failed.

A closure that has been computed has the path itself in it, which is what `ClosesOver` says
of Nix, so its hash is among those that the report covers.  One that has failed is in the
list of errors, and what `store_closure` fails with is the first call's error, in the order
in which the source makes the calls. -/
theorem pushed_handled (closes : ClosesOver nixb types texts codec)
    (follows : (machine parse hash fmt cache upstreamCaches).Follows
      (FromNix hash (nixStore nixb types texts codec files)) init [] is)
    (hrun : (machine parse hash fmt cache upstreamCaches).run init is = some (d, trace))
    {writer : ConnId} {report : ActionReport (StorePath B) E (HandlePathError E)} {ok : Bool}
    (reported : .event (.daemon (.finalReport writer report ok)) ∈ trace)
    {pushed : StorePath B} (received : pushed ∈ (eventLedger trace).pushes) :
    (∃ entry ∈ (eventLedger trace).handled, hash entry.1 = hash pushed) ∨
      ∃ e, (pushed, e) ∈ report.pathClosureErrors ∧
        ClosureError nixb types texts codec pushed e := by
  obtain ⟨staffed, known⟩ := closures_of_run follows hrun
  have covers := known.covers _ _ _ _ _ _ staffed reported
  cases closure : storeClosure nixb types texts codec pushed with
  | ok paths =>
      have inside : hash pushed ∈ (((eventLedger trace).pushes.flatMap
          (closureOf (nixStore nixb types texts codec files))).map hash).toFinset := by
        rw [List.mem_toFinset, List.mem_map]
        refine ⟨pushed, List.mem_flatMap.mpr ⟨pushed, received, ?_⟩, rfl⟩
        rw [closureOf_ok closure]
        exact self_mem_storeClosure closes closure
      rw [← covers.all, List.mem_toFinset, List.mem_map] at inside
      exact .inl inside
  | error e =>
      have fails : closureFails (nixStore nixb types texts codec files) pushed = true :=
        closureFails_error closure
      have listed := covers.failed.mem_iff.mpr (List.mem_filter.mpr ⟨received, fails⟩)
      obtain ⟨⟨path, e'⟩, entry, rfl⟩ := List.mem_map.mp listed
      have error := covers.errors path e' entry
      cases closure.symm.trans error
      exact .inr ⟨e, entry, storeClosure_eq_error.mp closure⟩

/-! ## A push of a path with one file -/

/-- A regular file that is not executable. -/
def helloTree : DirTree OsString FileNode := .leaf (.file 0o444 [1, 2, 3])

def helloFiles : FileSystem :=
  .reversed [utf8 "nix", utf8 "store", utf8 "aaaaaaaaaaaaaaaaaaaaaaaaaaaaaaaa-hello"] helloTree .leaf

/-- Nix with one path. -/
def helloNixb : Nixb (StorePath NixBasename) Unit String Unit where
  parsePath bytes := if bytes = cStr nixBasenameCodec helloPath then .ok helloPath else .error ()
  hash path := .ok (.ofList (path.basename.text.toList.take 32))
  name path := .ofList (path.basename.text.toList.drop 33)
  getFsClosure path := { elements := [path], result := .ok () }
  queryPathInfo _ := .ok ()
  ca _ := .ok none
  deriver _ := .ok none
  references _ := { elements := [], result := .ok () }
  sigs _ := { elements := [], result := .ok () }
  fromMessage _ := ()

/-- Hashes are seen as their digests. -/
def helloTypes : NixTypes String String NixBasename where
  storeName name := .ok name
  storeBasename hash name :=
    if h : isBasename (hash ++ "-" ++ name).toList = true then ⟨hash ++ "-" ++ name, h⟩
    else helloPath.basename
  contentAddress address := .ok address
  signature sig := .ok sig

def helloTexts : Texts where
  debug text := "\"" ++ text ++ "\""
  fromUtf8Lossy _ := ""

def helloNixStore : Nix (StorePath NixBasename) Unit Unit :=
  nixStore helloNixb helloTypes helloTexts nixBasenameCodec fun _ => helloFiles

/-- The bytes of its NAR. -/
def helloNar : List UInt8 :=
  Nar.encode (.leaf (.regular false [1, 2, 3]))

/-- Parts of 64 bytes, and the SHA-256 of the one NAR. -/
def nixFormats : HandleFormats (StorePath NixBasename) (List UInt8) String Unit :=
  { helloFormats with
    parseNarMultiparts := fun _ => .ok
      { partSize := ⟨64, by decide, by decide⟩, partsUrls := [partUrlOf 1, partUrlOf 2],
        uploadId := "id", expirationTs := fromSecs 60 }
    sha256 := .collecting fun bytes =>
      if bytes = helloNar then
        "c821ca07cd544768079e11a0a35edd7f122e17d2bcafd9beed943dbbf61ae754"
      else "" }

/-- The path is pushed and the daemon is stopped; the NAR goes through the pipe in three
pieces and is put in two parts. -/
def nixRun :
    List (DaemonInput (StorePath NixBasename) Unit Unit (StorePathError Unit) Unit) :=
  [.event (.connect 0), .event (.write 0 (encodeAll nixBasenameCodec (session [helloPath] true))),
    .event (.daemon .accept), .event (.pollIo 0 fun _ => .upTo 80),
    .event (.pollIo 0 fun _ => .upTo 80), .event (.daemon .recv), .event (.daemon .recv),
    .event (.daemon (.closureDone 0 (.ok [helloPath]))),
    .task 0 .start, .task 0 (.check .probe), .task 0 (.check (.upstream (some 404))),
    .task 0 (.check (.own missing)), .task 0 (.initiated (answered "")),
    .task 0 (.upload (.clock 0)), .task 0 (.write (helloNar.take 50) 50), .task 0 (.read 70),
    .task 0 (.write (helloNar.drop 50) 40), .task 0 (.write (helloNar.drop 90) 40),
    .task 0 (.shutdown (.ok ())), .task 0 (.read 14),
    .task 0 (.upload (.part (answered "\"a\"") true)), .task 0 (.upload (.clock 1)),
    .task 0 (.read 70), .task 0 (.read 9), .task 0 (.upload (.part (answered "\"b\"") false)),
    .task 0 (.upload (.complete (answered ""))),
    .task 0 (.pathInfos (helloNixStore.pathInfos helloPath)), .task 0 (.narinfoSent (answered "")),
    .event (.daemon (.leaveLoop true)), .join 0 true, .event (.daemon (.finish true))]

/-- The daemon on that store. -/
abbrev nixDaemon :
    Machine (Daemon (StorePath NixBasename) (StorePath NixBasename) Unit Unit
        (StorePathError Unit) (List UInt8) String Unit)
      (DaemonInput (StorePath NixBasename) Unit Unit (StorePathError Unit) Unit)
      (DaemonObs (StorePath NixBasename) Unit Unit (StorePathError Unit) String Unit) :=
  machine (StorePath.fromStr nixBasenameCodec) id nixFormats exampleCache [nixosCache]

theorem nixRun_fromNix : nixDaemon.Follows (FromNix id helloNixStore) init [] nixRun :=
  nixDaemon.follows_of_follows? (by decide +kernel)

/-- A run in which the path is published and reported. -/
theorem nixRun_runs :
    ∃ d trace pre post narinfo call writer report ok,
      nixDaemon.run init nixRun = some (d, trace) ∧
        taskHistory trace = pre ++ (helloPath, .publish narinfo call) :: post ∧
        .event (.daemon (.finalReport writer report ok)) ∈ trace ∧
        (eventLedger trace).pushes = [helloPath] := by
  have read : (nixDaemon.run init nixRun).map (fun next =>
      ((handleLog (taskTrace id next.2 helloPath)).publications.length,
        (eventLedger next.2).reports.length, (eventLedger next.2).pushes)) =
      some (1, 1, [helloPath]) := by
    decide +kernel
  obtain ⟨⟨d, trace⟩, hrun, values⟩ := Option.map_eq_some_iff.mp read
  simp only [Prod.mk.injEq] at values
  obtain ⟨one, oneReport, pushes⟩ := values
  obtain ⟨⟨narinfo, call⟩, entry⟩ := List.exists_mem_of_length_pos
    (l := (handleLog (taskTrace id trace helloPath)).publications) (by omega)
  obtain ⟨o, member, publishes⟩ := List.mem_filterMap.mp entry
  split at publishes <;> cases publishes
  obtain ⟨path, rfl, inHistory⟩ := (mem_own id).mp member
  obtain ⟨pre, post, split⟩ := List.append_of_mem inHistory
  obtain ⟨⟨writer, report⟩, entry⟩ := List.exists_mem_of_length_pos
    (l := (eventLedger trace).reports) (by omega)
  obtain ⟨ok, reported⟩ := mem_reports.mp entry
  exact ⟨d, trace, pre, post, narinfo, call, writer, report, ok, hrun, split, reported, pushes⟩

/-- The tree is a single file. -/
theorem published_tree_hello :
    ∃ d trace pre post narinfo call, nixDaemon.run init nixRun = some (d, trace) ∧
      taskHistory trace = pre ++ (helloPath, .publish narinfo call) :: post ∧
      StoresTree helloFiles
        (bytesPut (handleRequests nixFormats exampleCache (own id helloPath pre))) := by
  obtain ⟨d, trace, pre, post, narinfo, call, -, -, -, hrun, split, -⟩ := nixRun_runs
  exact ⟨d, trace, pre, post, narinfo, call, hrun, split,
    published_tree nixRun_fromNix hrun split⟩

/-- Its record has no references. -/
theorem published_records_hello :
    ∃ d trace narinfo call, nixDaemon.run init nixRun = some (d, trace) ∧
      (∃ initial, exampleCache.request nixFormats.toFormats call =
        narinfoRequest nixFormats exampleCache helloPath initial narinfo) ∧
      (∃ nixPath info, parsePath helloNixb nixBasenameCodec helloPath = .ok nixPath ∧
        helloNixb.queryPathInfo nixPath = .ok info ∧
        Records helloNixb helloTypes helloTexts nixBasenameCodec info
          (narinfo : NarInfo (StorePath NixBasename) String)) ∧
      ∃ pushed ∈ (eventLedger trace).pushes,
        VisitedFor helloNixb helloTypes helloTexts nixBasenameCodec pushed helloPath := by
  obtain ⟨d, trace, pre, post, narinfo, call, -, -, -, hrun, split, -⟩ := nixRun_runs
  have member : (helloPath, .publish narinfo call) ∈ taskHistory trace := by
    rw [split]
    exact List.mem_append_right _ List.mem_cons_self
  exact ⟨d, trace, narinfo, call, hrun,
    published_records nixRun_fromNix hrun (mem_taskHistory.mp member)⟩

/-- The traversal of that store visits the path itself. -/
theorem closesOver_hello : ClosesOver helloNixb helloTypes helloTexts nixBasenameCodec := by
  intro path nixPath parsed
  have found : (if cStr nixBasenameCodec path = cStr nixBasenameCodec helloPath then
      (.ok helloPath : Except Unit (StorePath NixBasename)) else .error ()) = .ok nixPath := parsed
  split at found
  · rename_i same
    obtain rfl := Except.ok.inj found
    refine ⟨List.mem_singleton_self _, ?_⟩
    rw [basename_of_cStr nixBasenameCodec_lawful same]
    decide +kernel
  · cases found

/-- The pushed path has been handled. -/
theorem pushed_handled_hello :
    ∃ d trace, ∃ report : ActionReport (StorePath NixBasename) Unit (HandlePathError Unit),
      nixDaemon.run init nixRun = some (d, trace) ∧
        ((∃ entry ∈ (eventLedger trace).handled, entry.1 = helloPath) ∨
          ∃ e, (helloPath, e) ∈ report.pathClosureErrors ∧
            ClosureError helloNixb helloTypes helloTexts nixBasenameCodec helloPath e) := by
  obtain ⟨d, trace, -, -, -, -, writer, report, ok, hrun, -, reported, pushes⟩ := nixRun_runs
  have received : helloPath ∈ (eventLedger trace).pushes := by
    rw [pushes]
    exact List.mem_singleton_self _
  exact ⟨d, trace, report, hrun,
    pushed_handled closesOver_hello nixRun_fromNix hrun reported received⟩

end Daemon

end CacheAction
