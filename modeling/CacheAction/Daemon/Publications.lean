import CacheAction.Daemon.Staff
import CacheAction.StorePath.PublishedNar

/-!
# What a daemon publishes, and what it reports

The daemon computes closures, handles their paths side by side and counts the
results; each path is handled by a task of its own.  Here the two are put
together, for every run of the daemon with its tasks.

* `tasks_run_handle_store_path`: the event loop and its sockets run as `socketMachine`
  does, every path that has been started is handled by one run of
  `handle_store_path`, and the result that is recorded is the one which that run
  returned.
* `published_once`: over the whole life of the daemon, at most one NARInfo is
  published for a store hash.  It is published for a path of a computed closure,
  after the complete upload of a NAR that it describes.
* `report_counts_publications`: the final report counts what the tasks have done.
  Every path of a closure has been published, skipped or reported as an error.

All three are read off one invariant, `Staffed`: the tasks that are running and those that have
been joined are runs of `handle_store_path`, one for each path that has been started, and
their histories together are the history of the daemon.  The hash of the path names the task,
since the event loop starts no two paths with the same hash.  What is known of one run
(`CacheAction.StorePath.PublishedNar`) is then known of each of them, whatever the others do
in between.
-/

namespace CacheAction

namespace HandleStorePath

open Sub60

variable {P σ δ E : Type} {fmt : HandleFormats P σ δ E} {cache : Sub60Cache} {path : P}
  {upstreamCaches : List Url}

/-! ## The result of a path and its log -/

/-- The bytes that have been published: those of the NAR and of the NARInfo, or
the largest number if that is too large. -/
def volume (fmt : HandleFormats P σ δ E) (log : HandleLog P δ) : ℕ :=
  if log.published then
    (log.publications.map fun publication =>
      min (log.accepted.length + (fmt.printNarInfo publication.1).utf8ByteSize) (2 ^ 64 - 1)).sum
  else 0

/-- The check has said that there is nothing to push. -/
def skips (trace : List (HandleObs P δ)) : Bool :=
  trace.any fun
    | .checked false => true
    | _ => false

section Results

/-- A task skips its path where the check says so. -/
theorem skips_iff {trace : List (HandleObs P δ)} :
    skips trace = true ↔ .checked false ∈ trace := by
  constructor
  · intro said
    obtain ⟨o, member, reads⟩ := List.any_eq_true.mp said
    split at reads
    · exact member
    · cases reads
  · intro member
    exact List.any_eq_true.mpr ⟨_, member, rfl⟩

variable {trace out : List (HandleObs P δ)} {handle handle' : Handle P σ δ E}

/-- The number of bytes returned is that of the bytes published. -/
theorem Known.volume_pushed {numBytes : NonZero 64}
    (known : Known fmt path trace (.returned (.ok (some numBytes)) : Handle P σ δ E)) :
    (handleLog trace).published = true ∧ volume fmt (handleLog trace) = numBytes.val := by
  cases known with
  | pushed publishing publications published size =>
      refine ⟨published, ?_⟩
      rw [volume, if_pos published, publications, List.map_singleton, List.sum_singleton, size,
        ← publishing.nar.size]
      rfl

/-- A result without a number of bytes comes with no publication. -/
theorem Known.volume_unpublished
    (known : Known fmt path trace handle) (unpushed : ∀ n, handle ≠ .returned (.ok (some n))) :
    (handleLog trace).published = false ∧ volume fmt (handleLog trace) = 0 := by
  have published : (handleLog trace).published = false := by
    rcases known.published_or with ⟨published, -⟩ | ⟨_, _, _, numBytes, returned, -⟩
    · exact published
    · exact absurd returned (unpushed numBytes)
  exact ⟨published, if_neg (by simp [published])⟩

/-- The check says that there is nothing to push only in the step that returns. -/
theorem returned_of_checked {input : HandleInput E}
    (h : Handle.step fmt cache path upstreamCaches handle input = some (handle', out))
    (member : .checked false ∈ out) : handle' = .returned (.ok none) := by
  cases Handle.step_spec _ _ _ _ h with
  | start =>
      obtain ⟨o, -, same⟩ := List.mem_map.mp member
      cases same
  | check done =>
      rcases List.mem_append.mp member with sent | after
      · obtain ⟨o, -, same⟩ := List.mem_map.mp sent
        cases same
      · unfold Handle.afterCheck at after ⊢
        split at after <;> simp at after
        rfl
  | initiated =>
      unfold Handle.receiveState at member
      split at member <;> simp at member
  | write writing =>
      unfold Handle.write at member
      split at member <;> simp at member
  | writeFails writing => simp at member
  | @shutdown halves result writing =>
      rcases result with e | ⟨⟩ <;> simp [Handle.shutdown] at member
  | read done =>
      unfold Handle.read at done
      split at done <;> obtain ⟨_, ⟨⟩⟩ := uploadStep_outputs done member
  | readFails done => obtain ⟨_, ⟨⟩⟩ := uploadStep_outputs done member
  | upload other done => obtain ⟨_, ⟨⟩⟩ := uploadStep_outputs done member
  | pathInfos =>
      unfold Handle.receiveInfos at member
      split at member <;> simp at member
  | narinfoSent =>
      unfold Handle.receivePublication at member
      split at member <;> simp at member

/-- A path is skipped exactly when the check has said so. -/
theorem skipped_iff_of_run {is : List (HandleInput E)}
    (hrun : (handleMachine fmt cache path upstreamCaches).run .called is = some (handle, trace)) :
    handle = .returned (.ok none) ↔ .checked false ∈ trace := by
  constructor
  · rintro rfl
    cases known_of_run hrun with
    | skipped said untouched => exact said
  · have said := (handleMachine fmt cache path upstreamCaches).run_invariant
      (I := fun handle trace => .checked false ∈ trace → handle = .returned (.ok none))
      (fun s trace i s' out said hstep member => by
        rcases List.mem_append.mp member with before | now
        · -- nothing happens after the return
          rw [said before] at hstep
          cases i <;> cases hstep
        · exact returned_of_checked hstep now)
      (fun member => absurd member List.not_mem_nil) hrun
    rwa [List.nil_append] at said

end Results

end HandleStorePath

namespace Daemon

open Sub60 HandleStorePath EventLoop

variable {P K C ε π σ δ E : Type} [DecidableEq K] (parse : String → Except π P) (hash : P → K)
  (fmt : HandleFormats P σ δ E) (cache : Sub60Cache) (upstreamCaches : List Url)

/-- What the task for the store hash `k` has done. -/
def taskTrace (trace : List (DaemonObs P C ε π δ E)) (k : K) : List (HandleObs P δ) :=
  own hash k (taskHistory trace)

/-! ## Every path has a run of its own -/

/-- The event loop and the tasks have run as they do on their own. -/
structure RunsTasks (d : Daemon P K C ε π σ δ E) (trace : List (DaemonObs P C ε π δ E)) : Prop where
  /-- The event loop and its sockets. -/
  eventLoop : ∃ is, (socketMachine parse hash).run Sockets.init is =
    some (d.sockets, events trace)
  /-- A task that has been started and is not yet recorded. -/
  running : ∀ path ∈ d.sockets.loop.handleStorePaths, ∃ handle, (path, handle) ∈ d.tasks ∧
    ∃ is, (handleMachine fmt cache path upstreamCaches).run .called is =
      some (handle, taskTrace hash trace (hash path))
  /-- A task whose result has been recorded. -/
  recorded : ∀ path result, (path, result) ∈ (eventLedger trace).handled →
    ∃ is, (handleMachine fmt cache path upstreamCaches).run .called is =
      some (.returned result, taskTrace hash trace (hash path))
  /-- Every path that has been started is one or the other, -/
  accounted : (d.tasks.map Prod.fst ++ (eventLedger trace).handled.map Prod.fst).Perm
    (eventLedger trace).started
  /-- there are no other tasks, -/
  started : ∀ path o, .task path o ∈ trace → path ∈ (eventLedger trace).started
  /-- no two for one store hash, -/
  distinct : ((eventLedger trace).started.map hash).Nodup
  /-- and at most `maxConcurrentStorePaths` at a time. -/
  bounded : d.tasks.length ≤ maxConcurrentStorePaths

section Runs

variable {parse hash fmt cache upstreamCaches} {d : Daemon P K C ε π σ δ E}
  {env : P → Handle P σ δ E → List (HandleObs P δ) → HandleInput E → Prop}
  {trace : List (DaemonObs P C ε π δ E)}

/-- The history of the tasks has their outputs and no others. -/
theorem mem_taskHistory {path : P} {o : HandleObs P δ} :
    (path, o) ∈ taskHistory trace ↔ .task path o ∈ trace := by
  constructor
  · intro member
    obtain ⟨obs, found, reads⟩ := List.mem_filterMap.mp member
    split at reads <;> cases reads
    exact found
  · intro member
    exact List.mem_filterMap.mpr ⟨_, member, rfl⟩

/-- A result that the event loop has recorded is the one that the task has returned with. -/
theorem Staffed.recorded (staffed : Staffed parse hash fmt cache upstreamCaches env d trace) {path : P}
    {result : HandleResult (HandlePathError E)}
    (member : (path, result) ∈ (eventLedger trace).handled) :
    ∃ is, (handleMachine fmt cache path upstreamCaches).run .called is =
      some (.returned result, taskTrace hash trace (hash path)) := by
  obtain ⟨is, hrun, -⟩ := staffed.tasks.ran (path, .returned result)
    (List.mem_append_right _ (List.mem_map.mpr ⟨(path, result), member, rfl⟩))
  exact ⟨is, hrun⟩

/-- Whoever has done something has been started. -/
theorem Staffed.started (staffed : Staffed parse hash fmt cache upstreamCaches env d trace) {path : P}
    {o : HandleObs P δ} (member : (path, o) ∈ taskHistory trace) :
    path ∈ (eventLedger trace).started := by
  obtain ⟨task, found, name⟩ := staffed.tasks.theirs _ member
  rw [← staffed.names.mem_iff]
  exact List.mem_map.mpr ⟨task, found, name⟩

/-- What is known about the task of a path that has been started. -/
theorem Staffed.ran_of_started (staffed : Staffed parse hash fmt cache upstreamCaches env d trace)
    {path : P} (started : path ∈ (eventLedger trace).started) :
    ∃ handle is, (handleMachine fmt cache path upstreamCaches).run .called is =
        some (handle, taskTrace hash trace (hash path)) ∧
      (handleMachine fmt cache path upstreamCaches).Follows (env path) .called [] is := by
  rw [← staffed.names.mem_iff] at started
  obtain ⟨⟨name, handle⟩, found, rfl⟩ := List.mem_map.mp started
  obtain ⟨is, hrun, follows⟩ := staffed.tasks.ran _ found
  exact ⟨handle, is, hrun, follows⟩

end Runs

/-- **The daemon is its event loop and one run of `handle_store_path` a path.**

Results about a single run, of the upload or of the decision to push, hold for every task
of the daemon through this theorem, and results about the event loop hold for the daemon. -/
theorem tasks_run_handle_store_path {is : List (DaemonInput P C ε π E)} {d : Daemon P K C ε π σ δ E}
    {trace : List (DaemonObs P C ε π δ E)}
    (hrun : (machine parse hash fmt cache upstreamCaches).run init is = some (d, trace)) :
    RunsTasks parse hash fmt cache upstreamCaches d trace := by
  have staffed := run_staffed hrun
  refine
    { eventLoop := staffed.ran, running := ?_, recorded := ?_, accounted := ?_, started := ?_,
      distinct := staffed.books.started_distinct, bounded := ?_ }
  · intro path member
    rw [← staffed.aligned] at member
    obtain ⟨⟨name, handle⟩, found, rfl⟩ := List.mem_map.mp member
    obtain ⟨is, hrun, -⟩ := staffed.tasks.ran _ (List.mem_append_left _ found)
    exact ⟨handle, found, is, hrun⟩
  · intro path result member
    exact staffed.recorded member
  · have names := staffed.names
    rwa [List.map_append, names_finished] at names
  · intro path o member
    exact staffed.started (mem_taskHistory.mpr member)
  · calc d.tasks.length
        = d.sockets.loop.handleStorePaths.length := by rw [← staffed.aligned, List.length_map]
      _ ≤ maxConcurrentStorePaths := staffed.books.pool.saturated.bounded

omit [DecidableEq K] in
/-- A report in the account has been written. -/
theorem mem_reports {trace : List (DaemonObs P C ε π δ E)} {writer : ConnId}
    {report : ActionReport P C (HandlePathError E)} :
    (writer, report) ∈ (eventLedger trace).reports ↔
      ∃ ok, .event (.daemon (.finalReport writer report ok)) ∈ trace := by
  constructor
  · intro member
    obtain ⟨o, seen, isReport⟩ := List.mem_filterMap.mp member
    split at isReport <;> cases isReport
    obtain ⟨o', inside, isEvent⟩ := List.mem_filterMap.mp (daemon_mem_of_seen seen)
    split at isEvent <;> cases isEvent
    exact ⟨_, inside⟩
  · rintro ⟨ok, reported⟩
    exact List.mem_filterMap.mpr ⟨.finalReport writer report ok,
      List.mem_filterMap.mpr ⟨_, List.mem_filterMap.mpr ⟨_, reported, rfl⟩, rfl⟩, rfl⟩

/-- A path that is in the cache already. -/
def cachedPath : String × String := ("11111111111111111111111111111111", "bye")

/-- A line has the store hash, a dash and the name of a path. -/
def parsePair (line : String) : Except Unit (String × String) :=
  .ok (.ofList (line.toList.take 32), .ofList (line.toList.drop 33))

/-- The bytes of `examplePath` on the wire. -/
def exampleLine : List UInt8 :=
  utf8 "00000000000000000000000000000000-hello" ++ [pathSeparator]

/-- One path is pushed and the daemon is stopped.  The closure has a repeated path; one of
its paths is pushed, the other one is found in the cache while the daemon drains,
and their tasks take turns. -/
def twoTasksRun : List (DaemonInput (String × String) Unit Unit Unit Unit) :=
  [.event (.connect 0), .event (.write 0 exampleLine), .event (.daemon .accept),
    .event (.pollIo 0 fun _ => .upTo 50), .event (.write 0 [stopSentinel]),
    .event (.pollIo 0 fun _ => .upTo 50), .event (.daemon .recv), .event (.daemon .recv),
    .event (.daemon (.closureDone 0 (.ok [examplePath, cachedPath, examplePath]))),
    .task 1 .start] ++
  pushRun.map (.task 0) ++
  [.event (.daemon (.leaveLoop true)), .task 1 (.check (.own (answered ""))), .join 0 true,
    .join 0 true, .event (.daemon (.finish true))]

/-- The daemon of the examples. -/
abbrev exampleDaemon :
    Machine (Daemon (String × String) String Unit Unit Unit (List UInt8) String Unit)
      (DaemonInput (String × String) Unit Unit Unit Unit)
      (DaemonObs (String × String) Unit Unit Unit String Unit) :=
  machine parsePair Prod.fst exampleFormats exampleCache [nixosCache]

/-- Two tasks run side by side, one of which publishes while the other skips its path. -/
theorem twoTasksRun_runs :
    ∃ d trace writer report ok, exampleDaemon.run init twoTasksRun = some (d, trace) ∧
      .event (.daemon (.finalReport writer report ok)) ∈ trace ∧
      ((eventLedger trace).closureHashes Prod.fst).card = 2 ∧
      ((eventLedger trace).started.map fun path =>
        volume exampleFormats (handleLog (taskTrace Prod.fst trace path.1))).sum = 274 := by
  have read : (exampleDaemon.run init twoTasksRun).map (fun next =>
      ((eventLedger next.2).reports.length,
        ((eventLedger next.2).closureHashes Prod.fst).card,
        ((eventLedger next.2).started.map fun path =>
          volume exampleFormats (handleLog (taskTrace Prod.fst next.2 path.1))).sum)) =
      some (1, 2, 274) := by
    decide +kernel
  obtain ⟨⟨d, trace⟩, hrun, values⟩ := Option.map_eq_some_iff.mp read
  simp only [Prod.mk.injEq] at values
  obtain ⟨one, hashes, bytes⟩ := values
  obtain ⟨⟨writer, report⟩, entry⟩ := List.exists_mem_of_length_pos
    (l := (eventLedger trace).reports) (by omega)
  obtain ⟨ok, reported⟩ := mem_reports.mp entry
  exact ⟨d, trace, writer, report, ok, hrun, reported, hashes, bytes⟩

theorem tasks_run_handle_store_path_two_tasks :
    ∃ d trace, exampleDaemon.run init twoTasksRun = some (d, trace) ∧
      RunsTasks parsePair Prod.fst exampleFormats exampleCache [nixosCache] d trace := by
  obtain ⟨d, trace, -, -, -, hrun, -⟩ := twoTasksRun_runs
  exact ⟨d, trace, hrun, tasks_run_handle_store_path _ _ _ _ _ hrun⟩

/-! ## One publication for a store hash -/

/-- What the daemon publishes in its whole life. -/
structure PublishesOnce (trace : List (DaemonObs P C ε π δ E)) : Prop where
  /-- At most one NARInfo for each store hash, -/
  once : ∀ k, (handleLog (taskTrace hash trace k)).publications.length ≤ 1
  oncePut : ∀ k, (narinfosPut (handleRequests fmt cache (taskTrace hash trace k))).length ≤ 1
  /-- for a path of a closure that has been computed, -/
  wanted : ∀ path narinfo call, .task path (.publish narinfo call) ∈ trace →
    hash path ∈ (eventLedger trace).closureHashes hash ∧
      ∃ entry ∈ (eventLedger trace).closures, path ∈ entry.2
  /-- and after its NAR has been uploaded, of which it has the hash and the size. -/
  uploaded : ∀ pre path narinfo call post,
    taskHistory trace = pre ++ (path, .publish narinfo call) :: post →
      ∃ initial before now,
        cache.request fmt.toFormats call = narinfoRequest fmt cache path initial narinfo ∧
        (handleMachine fmt cache path upstreamCaches).run .called before =
          some (now, own hash (hash path) pre) ∧
        Publishing fmt path initial (handleLog (own hash (hash path) pre)) narinfo call ∧
        AfterUpload fmt cache path initial before (own hash (hash path) pre)
  /-- No task puts a text in any other way. -/
  only : ∀ path o request, .task path o ∈ trace → o.request? fmt cache = some request →
    request.narinfo? ≠ none → ∃ narinfo call, o = .publish narinfo call

section Publications

variable {parse hash fmt cache upstreamCaches} {d : Daemon P K C ε π σ δ E}
  {env : P → Handle P σ δ E → List (HandleObs P δ) → HandleInput E → Prop}
  {trace : List (DaemonObs P C ε π δ E)}

/-- The paths that have been started are paths of the closures. -/
theorem Staffed.wanted (staffed : Staffed parse hash fmt cache upstreamCaches env d trace) {path : P}
    (started : path ∈ (eventLedger trace).started) :
    hash path ∈ (eventLedger trace).closureHashes hash ∧
      ∃ entry ∈ (eventLedger trace).closures, path ∈ entry.2 := by
  have books := staffed.books
  have scheduled : path ∈ (eventLedger trace).firstSeen := by
    rw [← books.pool.queue]
    exact List.mem_append_left _ started
  refine ⟨?_, books.wanted path scheduled⟩
  rw [← books.covered, books.seen, List.mem_toFinset]
  exact List.mem_map_of_mem scheduled

/-- The call that publishes a NARInfo puts it, to the URL of its path. -/
theorem Staffed.sentRequest (staffed : Staffed parse hash fmt cache upstreamCaches env d trace)
    {path : P} {narinfo : NarInfo P δ} {call : Call}
    (member : .task path (.publish narinfo call) ∈ trace) :
    ∃ initial, cache.request fmt.toFormats call = narinfoRequest fmt cache path initial narinfo := by
  have inHistory := mem_taskHistory.mpr member
  obtain ⟨handle, is, hrun, -⟩ := staffed.ran_of_started (staffed.started inHistory)
  obtain ⟨pre, post, split⟩ := List.append_of_mem ((mem_own hash).mpr ⟨path, rfl, inHistory⟩)
  obtain ⟨initial, -, -, -, -, -, publishing⟩ := publication_of_run hrun split
  exact ⟨initial, publishing.sentRequest⟩

/-- Nothing has been done for a store hash, or there is a task for it. -/
theorem Staffed.task (staffed : Staffed parse hash fmt cache upstreamCaches env d trace) (k : K) :
    taskTrace hash trace k = [] ∨ ∃ path handle is, hash path = k ∧
      (handleMachine fmt cache path upstreamCaches).run .called is =
        some (handle, taskTrace hash trace k) := by
  by_cases used : ∃ path ∈ (eventLedger trace).started, hash path = k
  · obtain ⟨path, started, rfl⟩ := used
    obtain ⟨handle, is, hrun, -⟩ := staffed.ran_of_started started
    exact Or.inr ⟨path, handle, is, rfl, hrun⟩
  · refine Or.inl (staffed.tasks.own_of_fresh fun task found same => used ?_)
    refine ⟨task.1, staffed.names.mem_iff.mp (List.mem_map_of_mem found), same⟩

end Publications

/-- **At most one NARInfo is published for a store hash**, whatever the closures,
the interleaving of the tasks and the answers of the servers.

Two paths with the same hash are not started twice, so what is in the trace under a hash is
the trace of one task, and that task publishes once.  The requests are those of the labels
(`Speaks`): nothing else that the daemon sends is a `PUT` of a NARInfo. -/
theorem published_once {is : List (DaemonInput P C ε π E)} {d : Daemon P K C ε π σ δ E}
    {trace : List (DaemonObs P C ε π δ E)}
    (hrun : (machine parse hash fmt cache upstreamCaches).run init is = some (d, trace)) :
    PublishesOnce hash fmt cache upstreamCaches trace := by
  have staffed := run_staffed hrun
  refine { once := ?_, oncePut := ?_, wanted := ?_, uploaded := ?_, only := ?_ }
  · intro k
    rcases staffed.task k with nothing | ⟨path, handle, is, -, hrun⟩
    · rw [nothing]
      exact Nat.zero_le _
    · exact (known_of_run hrun).once
  · intro k
    rcases staffed.task k with nothing | ⟨path, handle, is, -, hrun⟩
    · rw [nothing]
      exact Nat.zero_le _
    · exact narinfosPut_le_one hrun
  · intro path narinfo call member
    exact staffed.wanted (staffed.started (mem_taskHistory.mpr member))
  · intro pre path narinfo call post split
    have member : (path, .publish narinfo call) ∈ taskHistory trace := by
      rw [split]
      exact List.mem_append_right _ List.mem_cons_self
    obtain ⟨handle, is, hrun, -⟩ := staffed.ran_of_started (staffed.started member)
    -- the publication stands in the trace of its own task
    have own_split : taskTrace hash trace (hash path) =
        own hash (hash path) pre ++ .publish narinfo call :: own hash (hash path) post := by
      rw [taskTrace, split, own_append, own_cons_self]
    obtain ⟨initial, before, now, -, ran, sent, publishing⟩ := publication_of_run hrun own_split
    exact ⟨initial, before, now, publishing.sentRequest, ran, publishing,
      publishing.afterUpload ran sent⟩
  · intro path o request member sent puts
    have inHistory : (path, o) ∈ taskHistory trace := mem_taskHistory.mpr member
    obtain ⟨handle, is, hrun, -⟩ := staffed.ran_of_started (staffed.started inHistory)
    obtain ⟨narinfo, state, published⟩ := (speaks_of_run hrun o
      ((mem_own hash).mpr ⟨path, rfl, inHistory⟩)).publishes_of_narinfo sent puts
    exact ⟨narinfo, _, published⟩

theorem published_once_two_tasks :
    ∃ d trace, exampleDaemon.run init twoTasksRun = some (d, trace) ∧
      PublishesOnce Prod.fst exampleFormats exampleCache [nixosCache] trace := by
  obtain ⟨d, trace, -, -, -, hrun, -⟩ := twoTasksRun_runs
  exact ⟨d, trace, hrun, published_once _ _ _ _ _ hrun⟩

/-! ## The final report -/

/-- The report counts what the tasks have done: the paths that have been started
are those of the closures, one for each store hash, and each has been published,
skipped or reported as an error. -/
structure ReportsTasks (trace : List (DaemonObs P C ε π δ E))
    (report : ActionReport P C (HandlePathError E)) : Prop where
  all : ((eventLedger trace).started.map hash).toFinset =
    (eventLedger trace).closureHashes hash
  published : report.numPathsPushed = (eventLedger trace).started.countP fun path =>
    (handleLog (taskTrace hash trace (hash path))).published
  /-- A path counts as published when its NARInfo has been put, and answered with a successful
  status. -/
  put : ∀ path ∈ (eventLedger trace).started,
    (handleLog (taskTrace hash trace (hash path))).published = true →
      ∃ handle is, (handleMachine fmt cache path upstreamCaches).run .called is =
          some (handle, taskTrace hash trace (hash path)) ∧
        is.any HandleInput.publishes = true ∧ ∃ initial narinfo,
          narinfoRequest fmt cache path initial narinfo ∈
            handleRequests fmt cache (taskTrace hash trace (hash path))
  bytes : report.numBytesPushed = ((eventLedger trace).started.map fun path =>
    volume fmt (handleLog (taskTrace hash trace (hash path)))).sum
  /-- The skipped paths are those that the check has found in a cache. -/
  skipped : report.numPathsSkipped = (eventLedger trace).started.countP fun path =>
    skips (taskTrace hash trace (hash path))
  untouched : ∀ k, skips (taskTrace hash trace k) = true →
    (∀ o ∈ taskTrace hash trace k, o.mutates = false) ∧
      ∀ request ∈ handleRequests fmt cache (taskTrace hash trace k), request.readOnly = true
  /-- A path among the errors has been neither published nor skipped. -/
  failed : ∀ path e, (path, e) ∈ report.pathHandlingErrors →
    (handleLog (taskTrace hash trace (hash path))).published = false ∧
      skips (taskTrace hash trace (hash path)) = false
  /-- Each hash is counted in one place. -/
  total : report.numPathsPushed + report.numPathsSkipped + report.pathHandlingErrors.length =
    ((eventLedger trace).closureHashes hash).card

section Reports

variable {parse hash fmt cache upstreamCaches} {d : Daemon P K C ε π σ δ E}
  {env : P → Handle P σ δ E → List (HandleObs P δ) → HandleInput E → Prop}
  {trace : List (DaemonObs P C ε π δ E)}

/-- A recorded result is what the trace of its task says. -/
theorem Staffed.result (staffed : Staffed parse hash fmt cache upstreamCaches env d trace) {path : P}
    {result : HandleResult (HandlePathError E)}
    (member : (path, result) ∈ (eventLedger trace).handled) :
    wasPushed result = (handleLog (taskTrace hash trace (hash path))).published ∧
      bytesPushed result = volume fmt (handleLog (taskTrace hash trace (hash path))) ∧
      wasSkipped result = skips (taskTrace hash trace (hash path)) := by
  obtain ⟨is, hrun⟩ := staffed.recorded member
  have known := known_of_run hrun
  have skipped := skipped_iff_of_run hrun
  rw [← skips_iff] at skipped
  rcases result with e | (_ | numBytes)
  · obtain ⟨published, volume⟩ := known.volume_unpublished (by simp)
    refine ⟨published.symm, volume.symm, ?_⟩
    exact (Bool.eq_false_iff.mpr fun said => by cases skipped.mpr said).symm
  · obtain ⟨published, volume⟩ := known.volume_unpublished (by simp)
    exact ⟨published.symm, volume.symm, (skipped.mp rfl).symm⟩
  · obtain ⟨published, volume⟩ := known.volume_pushed
    refine ⟨published.symm, volume.symm, ?_⟩
    exact (Bool.eq_false_iff.mpr fun said => by cases skipped.mpr said).symm

/-- Counting the recorded results is counting the tasks. -/
theorem countP_handled
    (recorded : ((eventLedger trace).handled.map Prod.fst).Perm (eventLedger trace).started)
    (p : HandleResult (HandlePathError E) → Bool) (q : List (HandleObs P δ) → Bool)
    (same : ∀ entry ∈ (eventLedger trace).handled,
      p entry.2 = q (taskTrace hash trace (hash entry.1))) :
    ((eventLedger trace).handled.countP fun entry => p entry.2) =
      (eventLedger trace).started.countP fun path =>
        q (taskTrace hash trace (hash path)) := by
  rw [← recorded.countP_eq, List.countP_map]
  exact List.countP_congr fun entry member => by rw [same entry member]; rfl

end Reports

/-- **The final report counts what the tasks have done**, for fewer than `2 ^ 32`
store hashes and less than `2 ^ 64` bytes.

The event loop counts results and a result says what its task has done
(`Staffed.result`), so a count of results is a count of traces.  The two bounds are those
of the counters: below them no `u32` and no `u64` of the report wraps around. -/
theorem report_counts_publications {is : List (DaemonInput P C ε π E)} {d : Daemon P K C ε π σ δ E}
    {trace : List (DaemonObs P C ε π δ E)} {writer : ConnId}
    {report : ActionReport P C (HandlePathError E)} {ok : Bool}
    (hrun : (machine parse hash fmt cache upstreamCaches).run init is = some (d, trace))
    (reported : .event (.daemon (.finalReport writer report ok)) ∈ trace)
    (few : ((eventLedger trace).closureHashes hash).card < 2 ^ 32)
    (small : ((eventLedger trace).started.map fun path =>
      volume fmt (handleLog (taskTrace hash trace (hash path)))).sum < 2 ^ 64) :
    d.tasks = [] ∧ ReportsTasks hash fmt cache upstreamCaches trace report := by
  have staffed := run_staffed hrun
  obtain ⟨accounted, idle⟩ := staffed.books.accountsFor (mem_reports.mpr ⟨ok, reported⟩)
  have handled : (eventLedger trace).handled.length ≤
      ((eventLedger trace).closureHashes hash).card := by
    rw [← accounted.startedExactly, List.toFinset_card_of_nodup accounted.startedOnce,
      List.length_map, ← accounted.recorded.length_eq, List.length_map]
  obtain ⟨bytes, pushed, skipped⟩ :=
    reportOf_counters (eventLedger trace).closureErrors (eventLedger trace).handled
  obtain ⟨-, errors⟩ :=
    reportOf_errors (eventLedger trace).closureErrors (eventLedger trace).handled
  rw [← accounted.report] at bytes pushed skipped errors
  have total := outcomes_partition (eventLedger trace).handled
  rw [← errors] at total
  -- no counter wraps around
  have volumes : ((eventLedger trace).handled.map fun entry => bytesPushed entry.2).sum =
      ((eventLedger trace).started.map fun path =>
        volume fmt (handleLog (taskTrace hash trace (hash path)))).sum := by
    rw [← (accounted.recorded.map _).sum_eq, List.map_map]
    congr 1
    exact List.map_congr_left fun entry member => (staffed.result member).2.1
  rw [volumes, Nat.mod_eq_of_lt small] at bytes
  rw [Nat.mod_eq_of_lt (lt_of_le_of_lt (List.countP_le_length.trans handled) few)]
    at pushed skipped
  refine ⟨?_, ?_⟩
  · rwa [← staffed.aligned, List.map_eq_nil_iff] at idle
  refine
    { all := accounted.startedExactly, published := ?_, put := ?_, bytes, skipped := ?_,
      untouched := ?_, failed := ?_, total := ?_ }
  · rw [pushed]
    exact countP_handled accounted.recorded wasPushed (fun task => (handleLog task).published)
      fun entry member => (staffed.result member).1
  · intro path started published
    obtain ⟨handle, is, hrun, -⟩ := staffed.ran_of_started started
    exact ⟨handle, is, hrun, put_of_published hrun published⟩
  · rw [skipped]
    exact countP_handled accounted.recorded wasSkipped skips
      fun entry member => (staffed.result member).2.2
  · intro k said
    rcases staffed.task k with nothing | ⟨path, handle, is, rfl, hrun⟩
    · rw [nothing] at said
      cases said
    · obtain rfl := (skipped_iff_of_run hrun).mpr (skips_iff.mp said)
      cases known_of_run hrun with
      | skipped _ untouched => exact ⟨untouched.readOnly, untouched.requests⟩
  · intro path e member
    rw [errors] at member
    obtain ⟨⟨name, result⟩, found, fails⟩ := List.mem_filterMap.mp member
    obtain ⟨published, -, skipped⟩ := staffed.result found
    rcases result with e' | ok
    · cases fails
      exact ⟨published.symm, skipped.symm⟩
    · cases fails
  · rw [pushed, skipped, total, ← accounted.startedExactly,
      List.toFinset_card_of_nodup accounted.startedOnce, List.length_map,
      ← accounted.recorded.length_eq, List.length_map]

/-- One publication, one skipped path. -/
theorem report_counts_publications_two_tasks :
    ∃ d trace report, exampleDaemon.run init twoTasksRun = some (d, trace) ∧
      d.tasks = [] ∧
        ReportsTasks Prod.fst exampleFormats exampleCache [nixosCache] trace report := by
  obtain ⟨d, trace, writer, report, ok, hrun, reported, hashes, bytes⟩ := twoTasksRun_runs
  exact ⟨d, trace, report, hrun, report_counts_publications _ _ _ _ _ hrun reported
    (by rw [hashes]; decide) (by rw [bytes]; decide)⟩

end Daemon

end CacheAction
