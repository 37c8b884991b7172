import CacheAction.Daemon.Publications
import CacheAction.EventLoop.Closures
import CacheAction.StorePath.StoredNar

/-!
# The daemon in front of a store

The closures that the daemon computes, the NARs that it uploads and the infos that it
publishes come from `context::Nix`.  Here they are the answers of one store, which the
clients, the servers and the order in which things happen have no influence on
(`FromNix`).

* `published_from_store`: whatever is published is a path in the closure of a path that
  has been pushed.  Its NARInfo is the one which the store determines, and the parts
  that were put before it make up the NAR of the path.
* `report_covers_closures`: the final report covers the closures of all the pushed paths,
  each store hash once.  The pushed paths that have no closure are its closure errors.

A *pushed* path is one whose push `run` has received.  A client may have written more than
that: its line may not have arrived, or may wait in a connection or in the channel when the
main loop is left (`CacheAction.EventLoop.AcknowledgedPush`).

The closure of a path is computed on a thread of its own and its NAR is written by a task, so
their answers come at any time and in any order.  Both are read from the same store, and a
store that answers the same whenever it is asked is all that is assumed (`FromNix`).  With it a
statement about what was *answered* becomes one about what the store *has*.
-/

namespace CacheAction

namespace Daemon

open Sub60 HandleStorePath EventLoop

variable {P K C ε π σ δ E : Type} [DecidableEq K] (parse : String → Except π P) (hash : P → K)
  (fmt : HandleFormats P σ δ E) (cache : Sub60Cache) (upstreamCaches : List Url)
  (nix : Nix P C E)

/-- The input is one that the store gives: the answer to a closure that is waited for,
or an answer to one of the tasks. -/
def FromNix (d : Daemon P K C ε π σ δ E) (trace : List (DaemonObs P C ε π δ E)) :
    DaemonInput P C ε π E → Prop
  | .event input => ∀ answer ∈ closureAnswer input,
      ∀ path ∈ d.sockets.loop.storeClosures[answer.1]?, answer.2 = nix.storeClosure path
  | .task i input => ∀ task ∈ d.tasks[i]?,
      FromStore nix task.1 task.2 (taskTrace hash trace (hash task.1)) input
  | .join _ _ => True

/-- A run can be checked against a store. -/
instance instDecidableFromNix [DecidableEq P] [DecidableEq C] [DecidableEq E]
    (d : Daemon P K C ε π σ δ E) (trace : List (DaemonObs P C ε π δ E))
    (input : DaemonInput P C ε π E) : Decidable (FromNix hash nix d trace input) :=
  match input with
  | .event input => inferInstanceAs (Decidable (∀ answer ∈ closureAnswer input,
      ∀ path ∈ d.sockets.loop.storeClosures[answer.1]?, answer.2 = nix.storeClosure path))
  | .task i input => inferInstanceAs (Decidable (∀ task ∈ d.tasks[i]?,
      FromStore nix task.1 task.2 (taskTrace hash trace (hash task.1)) input))
  | .join _ _ => .isTrue trivial

/-- What a store answers to the daemon, it answers to its tasks. -/
theorem taskInputs_of_fromNix {d : Daemon P K C ε π σ δ E}
    {trace : List (DaemonObs P C ε π δ E)} {input : DaemonInput P C ε π E}
    (given : FromNix hash nix d trace input) :
    TaskInputs hash (FromStore nix) d trace input := by
  cases input with
  | task i input => exact given
  | _ => trivial

/-! ## The closures of the store -/

/-- The closures in the ledger are those of the store. -/
structure ClosuresFrom (led : Ledger P C (HandlePathError E)) : Prop where
  closures : ∀ path paths, (path, paths) ∈ led.closures → nix.storeClosure path = .ok paths
  errors : ∀ path e, (path, e) ∈ led.closureErrors → nix.storeClosure path = .error e

section Closures

variable {parse hash fmt cache upstreamCaches nix} {d d' : Daemon P K C ε π σ δ E}
  {trace out : List (DaemonObs P C ε π δ E)}

omit [DecidableEq K] in
/-- What has been computed or has failed by now was computed by the store. -/
theorem ClosuresFrom.step {loop : Loop P K C (HandlePathError E)}
    {led more : Ledger P C (HandlePathError E)} {answer : Option (ℕ × Except C (List P))}
    (known : ClosuresFrom nix led)
    (given : ∀ result ∈ answer, ∀ path ∈ loop.storeClosures[result.1]?,
      result.2 = nix.storeClosure path)
    (effect : ClosureStep answer loop more) : ClosuresFrom nix (led ++ more) := by
  cases effect with
  | none external closures errors fresh =>
      refine { closures := ?_, errors := ?_ }
      · show ∀ path paths, (path, paths) ∈ led.closures ++ more.closures → _
        rw [closures, List.append_nil]
        exact known.closures
      · show ∀ path e, (path, e) ∈ led.closureErrors ++ more.closureErrors → _
        rw [errors, List.append_nil]
        exact known.errors
  | @failed i path e input found closures errors fresh =>
      refine { closures := ?_, errors := ?_ }
      · show ∀ path paths, (path, paths) ∈ led.closures ++ more.closures → _
        rw [closures, List.append_nil]
        exact known.closures
      · show ∀ path e, (path, e) ∈ led.closureErrors ++ more.closureErrors → _
        rw [errors]
        intro path' e' member
        rcases List.mem_append.mp member with before | now
        · exact known.errors path' e' before
        · cases List.mem_singleton.mp now
          exact (given _ input path found).symm
  | @computed i path paths input found closures errors fresh =>
      refine { closures := ?_, errors := ?_ }
      · show ∀ path paths, (path, paths) ∈ led.closures ++ more.closures → _
        rw [closures]
        intro path' paths' member
        rcases List.mem_append.mp member with before | now
        · exact known.closures path' paths' before
        · cases List.mem_singleton.mp now
          exact (given _ input path found).symm
      · show ∀ path e, (path, e) ∈ led.closureErrors ++ more.closureErrors → _
        rw [errors, List.append_nil]
        exact known.errors

/-- The input with which `run` goes on after a task brings no closure. -/
theorem closureAnswer_completing {H : Type} (phase : Phase) (i : ℕ) (result : HandleResult H)
    (ok : Bool) :
    closureAnswer (completing phase i result ok : SocketInput P C H ε π) = none := by
  cases phase <;> rfl

/-- Every step keeps the closures those of the store. -/
theorem ClosuresFrom.effect {env : P → Handle P σ δ E → List (HandleObs P δ) → HandleInput E → Prop}
    {input : DaemonInput P C ε π E}
    (staffed : Staffed parse hash fmt cache upstreamCaches env d trace)
    (known : ClosuresFrom nix (eventLedger trace)) (given : FromNix hash nix d trace input)
    (effect : DaemonEffect parse hash fmt cache upstreamCaches d d' out input) :
    ClosuresFrom nix (eventLedger (trace ++ out)) := by
  cases effect with
  | event input evs external hstep tasks running outputs =>
      rw [outputs, eventLedger_event]
      exact known.step given (socketStep_closures staffed.valid hstep)
  | task i path handle handle' input outs found hstep sockets tasks running outputs =>
      rwa [outputs, eventLedger_task]
  | joined i path result ok evs found hstep tasks running outputs =>
      rw [outputs, eventLedger_event]
      have brings := socketStep_closures staffed.valid hstep
      rw [closureAnswer_completing] at brings
      exact known.step (by rintro _ ⟨⟩) brings
  | crashed i path panic ok found waiting state outputs =>
      rw [outputs, eventLedger_append]
      have nothing : ClosureStep none d.sockets.loop
          (eventLedger [(.crashed panic : DaemonObs P C ε π δ E)]) := .none rfl rfl rfl rfl
      exact known.step (by rintro _ ⟨⟩) nothing

/-- A run in front of the store. -/
theorem closures_of_run {is : List (DaemonInput P C ε π E)}
    (follows : (machine parse hash fmt cache upstreamCaches).Follows (FromNix hash nix) init
      [] is)
    (hrun : (machine parse hash fmt cache upstreamCaches).run init is = some (d, trace)) :
    Staffed parse hash fmt cache upstreamCaches (FromStore nix) d trace ∧
      ClosuresFrom nix (eventLedger trace) := by
  have nothing : ClosuresFrom nix (eventLedger ([] : List (DaemonObs P C ε π δ E))) := by
    refine ⟨?_, ?_⟩ <;> simp [eventLedger, events, ledger]
  have invariant := (machine parse hash fmt cache upstreamCaches).run_invariant_of_follows
    (I := fun d trace => Staffed parse hash fmt cache upstreamCaches (FromStore nix) d trace ∧
      ClosuresFrom nix (eventLedger trace))
    (fun d trace input d' out known given hstep => by
      have effect := step_effect parse hash fmt cache upstreamCaches hstep
      exact ⟨known.1.effect (taskInputs_of_fromNix hash nix given) effect,
        known.2.effect known.1 given effect⟩)
    follows ⟨Staffed.initial, nothing⟩ hrun
  rwa [List.nil_append] at invariant

end Closures

/-! ## What is published -/

/-- Everything that is published comes from the store. -/
structure PublishesStore (trace : List (DaemonObs P C ε π δ E)) : Prop where
  /-- It is a path in the closure of one that has been pushed, -/
  wanted : ∀ path narinfo call, .task path (.publish narinfo call) ∈ trace →
    ∃ pushed ∈ (eventLedger trace).pushes, ∃ paths,
      nix.storeClosure pushed = .ok paths ∧ path ∈ paths
  /-- with the NARInfo of the store, which is what is put, -/
  described : ∀ path narinfo call, .task path (.publish narinfo call) ∈ trace →
    Describes nix fmt path narinfo ∧
      ∃ initial, cache.request fmt.toFormats call = narinfoRequest fmt cache path initial narinfo
  /-- and after its NAR has been put, part by part. -/
  stored : ∀ pre path narinfo call post,
    taskHistory trace = pre ++ (path, .publish narinfo call) :: post →
      nix.nar path = some (bytesPut (handleRequests fmt cache (own hash (hash path) pre)))

section Published

variable {parse hash fmt cache upstreamCaches nix} {d : Daemon P K C ε π σ δ E}
  {env : P → Handle P σ δ E → List (HandleObs P δ) → HandleInput E → Prop}
  {trace : List (DaemonObs P C ε π δ E)}

/-- What has been started is in the closure of a path that has been pushed. -/
theorem ClosuresFrom.pushed
    (staffed : Staffed parse hash fmt cache upstreamCaches env d trace)
    (known : ClosuresFrom nix (eventLedger trace)) {path : P}
    (started : path ∈ (eventLedger trace).started) :
    ∃ pushed ∈ (eventLedger trace).pushes, ∃ paths,
      nix.storeClosure pushed = .ok paths ∧ path ∈ paths := by
  have books := staffed.books
  have scheduled : path ∈ (eventLedger trace).firstSeen := by
    rw [← books.pool.queue]
    exact List.mem_append_left _ started
  obtain ⟨⟨pushed, paths⟩, closure, inside⟩ := books.wanted path scheduled
  refine ⟨pushed, books.pushes.mem_iff.mpr ?_, paths, known.closures _ _ closure, inside⟩
  exact List.mem_append_left _ (List.mem_append_right _ (List.mem_map_of_mem closure))

/-- What has been published for a path is what the store has of it. -/
theorem Staffed.described
    (staffed : Staffed parse hash fmt cache upstreamCaches (FromStore nix) d trace) {path : P}
    {narinfo : NarInfo P δ} {call : Call}
    (member : (path, .publish narinfo call) ∈ taskHistory trace) :
    Describes nix fmt path narinfo := by
  obtain ⟨handle, is, ran, given⟩ := staffed.ran_of_started (staffed.started member)
  have published : (narinfo, call) ∈
      (handleLog (taskTrace hash trace (hash path))).publications :=
    List.mem_filterMap.mpr ⟨_, (mem_own hash).mpr ⟨path, rfl, member⟩, rfl⟩
  exact (stored_of_run given ran).described _ published

/-- What has been put for a path by the time it is published is its NAR. -/
theorem Staffed.stored
    (staffed : Staffed parse hash fmt cache upstreamCaches (FromStore nix) d trace)
    {pre post : List (P × HandleObs P δ)} {path : P} {narinfo : NarInfo P δ} {call : Call}
    (split : taskHistory trace = pre ++ (path, .publish narinfo call) :: post) :
    nix.nar path = some (bytesPut (handleRequests fmt cache (own hash (hash path) pre))) := by
  have inHistory : (path, .publish narinfo call) ∈ taskHistory trace := by
    rw [split]
    exact List.mem_append_right _ List.mem_cons_self
  obtain ⟨handle, is, ran, given⟩ := staffed.ran_of_started (staffed.started inHistory)
  have own_split : taskTrace hash trace (hash path) =
      own hash (hash path) pre ++ .publish narinfo call :: own hash (hash path) post := by
    rw [taskTrace, split, own_append, own_cons_self]
  exact stored_of_publish given ran own_split

end Published

/-- **Everything that is published comes from the store**, and was asked for by a push.

What a task reads and records are the store's answers for its path, whatever else happens
in the meantime; the path is in a closure that the same store has computed. -/
theorem published_from_store {is : List (DaemonInput P C ε π E)} {d : Daemon P K C ε π σ δ E}
    {trace : List (DaemonObs P C ε π δ E)}
    (follows : (machine parse hash fmt cache upstreamCaches).Follows (FromNix hash nix) init
      [] is)
    (hrun : (machine parse hash fmt cache upstreamCaches).run init is = some (d, trace)) :
    PublishesStore hash fmt cache nix trace := by
  obtain ⟨staffed, known⟩ := closures_of_run follows hrun
  refine { wanted := ?_, described := ?_, stored := ?_ }
  · intro path narinfo call member
    exact known.pushed staffed (staffed.started (mem_taskHistory.mpr member))
  · intro path narinfo call member
    exact ⟨staffed.described (mem_taskHistory.mpr member), staffed.sentRequest member⟩
  · intro pre path narinfo call post split
    exact staffed.stored split

/-- The store of the examples. -/
def exampleStore : Nix (String × String) Unit Unit where
  storeClosure path := if path = examplePath then .ok [examplePath, cachedPath, examplePath]
    else .error ()
  nar path := if path = examplePath then some [1, 2, 3] else none
  pathInfos _ := .ok { references := .ok [], deriver := .ok none, signatures := .ok [],
                       contentAddress := .ok none }

theorem twoTasksRun_fromNix :
    exampleDaemon.Follows (FromNix Prod.fst exampleStore) init [] twoTasksRun :=
  exampleDaemon.follows_of_follows? (by decide +kernel)

theorem published_from_store_two_tasks :
    ∃ d trace, exampleDaemon.run init twoTasksRun = some (d, trace) ∧
      PublishesStore Prod.fst exampleFormats exampleCache exampleStore trace := by
  obtain ⟨d, trace, -, -, -, hrun, -⟩ := twoTasksRun_runs
  exact ⟨d, trace, hrun, published_from_store _ _ _ _ _ _ twoTasksRun_fromNix hrun⟩

/-! ## The final report and the closures -/

/-- The closure of a path, if the store has one. -/
def closureOf (path : P) : List P :=
  match nix.storeClosure path with
  | .ok paths => paths
  | .error _ => []

/-- The path has no closure in the store. -/
def closureFails (path : P) : Bool :=
  match nix.storeClosure path with
  | .ok _ => false
  | .error _ => true

variable {nix} in
theorem closureOf_ok {path : P} {paths : List P}
    (closure : nix.storeClosure path = .ok paths) : closureOf nix path = paths := by
  simp only [closureOf, closure]

variable {nix} in
theorem closureFails_error {path : P} {e : C} (fails : nix.storeClosure path = .error e) :
    closureFails nix path = true := by
  simp only [closureFails, fails]

/-- The report covers the closures of the paths that have been pushed. -/
structure CoversClosures (trace : List (DaemonObs P C ε π δ E))
    (report : ActionReport P C (HandlePathError E)) : Prop where
  /-- Every push of a path without a closure is reported, with the error of the store, -/
  failed : (report.pathClosureErrors.map Prod.fst).Perm
    ((eventLedger trace).pushes.filter (closureFails nix))
  errors : ∀ path e, (path, e) ∈ report.pathClosureErrors → nix.storeClosure path = .error e
  /-- and every path in the closures of the others has been handled, once. -/
  once : ((eventLedger trace).handled.map fun entry => hash entry.1).Nodup
  all : ((eventLedger trace).handled.map fun entry => hash entry.1).toFinset =
    (((eventLedger trace).pushes.flatMap (closureOf nix)).map hash).toFinset

/-- What a report that has been made covers. -/
theorem ClosuresFrom.covers {d : Daemon P K C ε π σ δ E} {trace : List (DaemonObs P C ε π δ E)}
    {env : P → Handle P σ δ E → List (HandleObs P δ) → HandleInput E → Prop}
    (staffed : Staffed parse hash fmt cache upstreamCaches env d trace)
    (known : ClosuresFrom nix (eventLedger trace)) {writer : ConnId}
    {report : ActionReport P C (HandlePathError E)} {ok : Bool}
    (reported : .event (.daemon (.finalReport writer report ok)) ∈ trace) :
    CoversClosures hash nix trace report := by
  obtain ⟨accounted, -⟩ := staffed.books.accountsFor (mem_reports.mpr ⟨ok, reported⟩)
  obtain ⟨errors, -⟩ := reportOf_errors (eventLedger trace).closureErrors
    (eventLedger trace).handled
  rw [← accounted.report] at errors
  have handled : ((eventLedger trace).handled.map fun entry => hash entry.1).Perm
      ((eventLedger trace).started.map hash) := by
    have recorded := accounted.recorded.map hash
    rwa [List.map_map] at recorded
  have closed : ∀ entry ∈ (eventLedger trace).closures, closureFails nix entry.1 = false := by
    intro entry member
    simp only [closureFails, known.closures entry.1 entry.2 member]
  have without : ∀ entry ∈ (eventLedger trace).closureErrors, closureFails nix entry.1 = true :=
    fun entry member => closureFails_error (known.errors entry.1 entry.2 member)
  refine { failed := ?_, errors := ?_, once := ?_, all := ?_ }
  · rw [errors]
    refine ((accounted.pushes.filter _).trans (List.Perm.of_eq ?_)).symm
    rw [List.filter_append, List.filter_eq_self.mpr, List.filter_eq_nil_iff.mpr, List.append_nil]
    · simpa using fun path paths member => closed (path, paths) member
    · simpa using fun path e member => without (path, e) member
  · intro path e member
    rw [errors] at member
    exact known.errors path e member
  · exact handled.nodup_iff.mpr accounted.startedOnce
  · rw [List.toFinset_eq_of_perm _ _ handled, accounted.startedExactly, Ledger.closureHashes]
    -- the closures in the ledger are those of the pushes that have one
    have nothing : ((eventLedger trace).closureErrors.map Prod.fst).flatMap (closureOf nix) = [] := by
      rw [List.flatMap_map, List.flatMap_eq_nil_iff]
      intro entry member
      simp only [closureOf, known.errors entry.1 entry.2 member]
    have theirs : ((eventLedger trace).closures.map Prod.fst).flatMap (closureOf nix) =
        (eventLedger trace).closures.flatMap Prod.snd := by
      rw [List.flatMap_map]
      exact List.flatMap_congr fun entry member =>
        closureOf_ok (known.closures entry.1 entry.2 member)
    have pushed := accounted.pushes.flatMap_right (closureOf nix)
    rw [List.flatMap_append, nothing, theirs, List.nil_append] at pushed
    exact List.toFinset_eq_of_perm _ _ (pushed.symm.map hash)

/-- **The final report covers the closures of all the pushed paths.**

This is the account of the event loop with the store's closures in the place of the inputs:
which of the pushes have failed and which hashes are handled is decided by the store. -/
theorem report_covers_closures {is : List (DaemonInput P C ε π E)}
    {d : Daemon P K C ε π σ δ E} {trace : List (DaemonObs P C ε π δ E)} {writer : ConnId}
    {report : ActionReport P C (HandlePathError E)} {ok : Bool}
    (follows : (machine parse hash fmt cache upstreamCaches).Follows (FromNix hash nix) init
      [] is)
    (hrun : (machine parse hash fmt cache upstreamCaches).run init is = some (d, trace))
    (reported : .event (.daemon (.finalReport writer report ok)) ∈ trace) :
    CoversClosures hash nix trace report := by
  obtain ⟨staffed, known⟩ := closures_of_run follows hrun
  exact known.covers _ _ _ _ _ _ staffed reported

/-- The closure of the one push has both paths. -/
theorem report_covers_closures_two_tasks :
    ∃ d trace report, exampleDaemon.run init twoTasksRun = some (d, trace) ∧
      CoversClosures Prod.fst exampleStore trace report := by
  obtain ⟨d, trace, writer, report, ok, hrun, reported, -⟩ := twoTasksRun_runs
  exact ⟨d, trace, report, hrun,
    report_covers_closures _ _ _ _ _ _ twoTasksRun_fromNix hrun reported⟩

end Daemon

end CacheAction
