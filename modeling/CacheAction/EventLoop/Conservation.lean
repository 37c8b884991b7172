import CacheAction.EventLoop.Effects
import Mathlib.Algebra.BigOperators.Group.Finset.Basic
import Mathlib.Data.Finset.Card
import Mathlib.Tactic.Ring

/-!
# Conservation of work

`Books` relates the local variables of `run` to the history of the run.  Its
parts are:

* every push received is being computed, has failed or has given its closure;
* the path handlers form a pool whose accounts are kept by
  `WorkPool.Accounts`: what has been scheduled, started and handled;
* the hashes seen are those of the scheduled paths, each scheduled once, and
  also those of the computed closures;
* the report is what the recorded results add up to (`reportOf`).

Each effect of an event preserves it (`Books.effect`), hence so does every run
(`run_books`).  In the last state nothing is left in any collection, and the
history is complete (`work_conserved`).

### Books and not counters

The counters of the report wrap around, at `2 ^ 32` paths and `2 ^ 64` bytes, so an invariant
that equates them with sizes would hold below these numbers only, and would have to carry the
bounds through every step.  `reportOf` is instead the very fold that `run` performs, over the
list of recorded results.  It is exact at any size; the bounds are needed once, at the end,
where the counters are read as numbers.

That the order in which handlers complete does not matter is read off in the same place: the
handled paths are a permutation of the started ones, these have distinct hashes, and counting
over a list of distinct hashes is counting over the set of them (`countP_outcomes`,
`sum_outcomes`).
-/

namespace CacheAction

namespace EventLoop

variable {P K C H R : Type} [DecidableEq K] (hash : P → K)

/-! ## What the report says -/

/-- The report after these closure errors and these handlings, in the order in which they were
recorded.  The errors go in first, since the two kinds of entries do not interfere
(`reportOf_closureError`). -/
def reportOf (errors : List (P × C)) (handled : List (P × HandleResult H)) :
    ActionReport P C H :=
  handled.foldl (fun report entry => report.record entry.1 entry.2)
    { (ActionReport.default : ActionReport P C H) with pathClosureErrors := errors }

/-- The number of bytes that a handling has pushed. -/
def bytesPushed : HandleResult H → ℕ
  | .ok (some numBytes) => numBytes.val
  | _ => 0

/-- The handling has pushed the path. -/
def wasPushed : HandleResult H → Bool
  | .ok (some _) => true
  | _ => false

/-- The handling has found the path in the cache. -/
def wasSkipped : HandleResult H → Bool
  | .ok none => true
  | _ => false

/-- The handling has failed. -/
def hasFailed : HandleResult H → Bool
  | .error _ => true
  | _ => false

/-- The entry that a handling leaves among the errors. -/
def failure (entry : P × HandleResult H) : Option (P × H) :=
  match entry.2 with
  | .error e => some (entry.1, e)
  | .ok _ => none

section Reports

variable (errors : List (P × C)) (handled : List (P × HandleResult H))

theorem reportOf_concat (path : P) (result : HandleResult H) :
    reportOf errors (handled ++ [(path, result)]) =
      (reportOf errors handled).record path result := by
  simp [reportOf]

/-- The counters of the report, up to the size of the machine integers. -/
theorem reportOf_counters :
    (reportOf errors handled).numBytesPushed =
        (handled.map fun entry => bytesPushed entry.2).sum % 2 ^ 64 ∧
      (reportOf errors handled).numPathsPushed =
        (handled.countP fun entry => wasPushed entry.2) % 2 ^ 32 ∧
      (reportOf errors handled).numPathsSkipped =
        (handled.countP fun entry => wasSkipped entry.2) % 2 ^ 32 := by
  induction handled using List.reverseRecOn with
  | nil => exact ⟨rfl, rfl, rfl⟩
  | append_singleton init entry ih =>
      obtain ⟨path, result⟩ := entry
      obtain ⟨bytes, pushed, skipped⟩ := ih
      rw [reportOf_concat]
      rcases result with e | (_ | n) <;>
        simp [ActionReport.record, bytes, pushed, skipped, bytesPushed, wasPushed, wasSkipped,
          List.countP_append]

/-- The error lists of the report. -/
theorem reportOf_errors :
    (reportOf errors handled).pathClosureErrors = errors ∧
      (reportOf errors handled).pathHandlingErrors = handled.filterMap failure := by
  induction handled using List.reverseRecOn with
  | nil => exact ⟨rfl, rfl⟩
  | append_singleton init entry ih =>
      obtain ⟨path, result⟩ := entry
      obtain ⟨closure, handling⟩ := ih
      rw [reportOf_concat, List.filterMap_append]
      rcases result with e | (_ | n) <;>
        simp [ActionReport.record, closure, handling, failure]

/-- An error of a closure is put at the end of its list, and no counter changes. -/
theorem reportOf_closureError (path : P) (e : C) :
    reportOf (errors ++ [(path, e)]) handled =
      { reportOf errors handled with
        pathClosureErrors := (reportOf errors handled).pathClosureErrors ++ [(path, e)] } := by
  induction handled using List.reverseRecOn with
  | nil => rfl
  | append_singleton init entry ih =>
      obtain ⟨p, result⟩ := entry
      rw [reportOf_concat, reportOf_concat, ih]
      rcases result with e | (_ | n) <;> rfl

/-- Every handling is counted in exactly one place. -/
theorem outcomes_partition :
    (handled.countP fun entry => wasPushed entry.2) +
        (handled.countP fun entry => wasSkipped entry.2) +
        (handled.filterMap failure).length = handled.length := by
  induction handled with
  | nil => rfl
  | cons entry rest ih =>
      obtain ⟨path, result⟩ := entry
      rcases result with e | (_ | n)
      · rw [List.countP_cons_of_neg (by simp [wasPushed]),
          List.countP_cons_of_neg (by simp [wasSkipped]),
          List.filterMap_cons_some (show failure (path, Except.error e) = some (path, e) from rfl),
          List.length_cons, List.length_cons, ← ih]
        ring
      · rw [List.countP_cons_of_neg (by simp [wasPushed]),
          List.countP_cons_of_pos (by simp [wasSkipped]),
          List.filterMap_cons_none rfl, List.length_cons, ← ih]
        ring
      · rw [List.countP_cons_of_pos (by simp [wasPushed]),
          List.countP_cons_of_neg (by simp [wasSkipped]),
          List.filterMap_cons_none rfl, List.length_cons, ← ih]
        ring

end Reports

/-! ## The invariant -/

/-- The local variables of `run` against the ledger of the run.

`seen` and `covered` say of one set, the variable `seen_store_hashes`, that it is the hashes of
what has been scheduled and that it is the hashes of the closures.  Their being the same set
is what deduplication means. -/
structure Books (led : Ledger P C H) (loop : Loop P K C H) : Prop where
  pushes : led.pushes.Perm
    (led.closureErrors.map Prod.fst ++ led.closures.map Prod.fst ++ loop.storeClosures)
  pool : WorkPool.Accounts maxConcurrentStorePaths loop.pool led.firstSeen led.started
    (led.handled.map Prod.fst)
  distinct : (led.firstSeen.map hash).Nodup
  seen : loop.seenStoreHashes = (led.firstSeen.map hash).toFinset
  covered : loop.seenStoreHashes = led.closureHashes hash
  /-- Nothing is scheduled but paths of closures. -/
  wanted : ∀ path ∈ led.firstSeen, ∃ entry ∈ led.closures, path ∈ entry.2
  report : loop.report = reportOf led.closureErrors led.handled
  stopping : loop.phase ≠ .mainLoop →
    loop.storeClosures = [] ∧ loop.stopProgressWriter.isSome
  emptied : loop.phase = .finished → loop.handleStorePaths = []
  reported : ∀ entry ∈ led.reports, loop.phase = .finished ∧ entry.2 = loop.report

section Loops

variable {loop : Loop P K C H}

omit [DecidableEq K] in
theorem main_of_selecting (selecting : loop.selecting = true) : loop.phase = .mainLoop := by
  simp only [Loop.selecting, Bool.and_eq_true, decide_eq_true_eq] at selecting
  exact selecting.1

omit [DecidableEq K] in
/-- The main loop is left only with a stop requested and no closure running. -/
theorem stopped_of_not_selecting (main : loop.phase = .mainLoop)
    (done : loop.selecting = false) :
    loop.storeClosures = [] ∧ loop.stopProgressWriter.isSome := by
  simp only [Loop.selecting, main, decide_true, Bool.true_and, Bool.not_eq_false',
    Bool.and_eq_true, List.isEmpty_iff] at done
  exact ⟨done.2, done.1⟩

end Loops

namespace Books

variable {hash} {led : Ledger P C H} {loop : Loop P K C H}

/-- Nothing has happened. -/
theorem initial : Books hash (ledger ([] : List (Obs P C H R))) (init : State P K C H R).loop where
  pushes := List.Perm.refl _
  pool := WorkPool.Accounts.initial _
  distinct := List.nodup_nil
  seen := rfl
  covered := rfl
  wanted := by simp [ledger]
  report := rfl
  stopping := fun h => absurd rfl h
  emptied := fun _ => rfl
  reported := by simp [ledger]

/-- A push is received: its closure is awaited. -/
theorem push (books : Books hash led loop) (path : P) (selecting : loop.selecting = true) :
    Books hash { led with pushes := led.pushes ++ [path] }
      { loop with storeClosures := loop.storeClosures ++ [path] } :=
  { books with
    pushes := by
      have := books.pushes.append_right [path]
      rwa [List.append_assoc _ loop.storeClosures] at this
    stopping := fun h => absurd (main_of_selecting selecting) h }

theorem stop (books : Books hash led loop) (writer : ConnId)
    (selecting : loop.selecting = true) :
    Books hash led { loop with stopProgressWriter := some writer } :=
  { books with stopping := fun h => absurd (main_of_selecting selecting) h }

/-- Taking the `i`-th running closure out leaves the others. -/
theorem pushes_split (books : Books hash led loop) {i : ℕ} {path : P}
    (found : loop.storeClosures[i]? = some path) :
    led.pushes.Perm
      (led.closureErrors.map Prod.fst ++ led.closures.map Prod.fst ++
        path :: loop.storeClosures.eraseIdx i) := by
  obtain ⟨valid, rfl⟩ := List.getElem?_eq_some_iff.mp found
  exact books.pushes.trans ((List.getElem_cons_eraseIdx_perm valid).symm.append_left _)

/-- A closure has failed: the push moves from those awaited to the errors. -/
theorem closureFailed (books : Books hash led loop) {i : ℕ} {path : P} (e : C)
    (selecting : loop.selecting = true) (found : loop.storeClosures[i]? = some path) :
    Books hash { led with closureErrors := led.closureErrors ++ [(path, e)] }
      { loop with
        storeClosures := loop.storeClosures.eraseIdx i
        report := { loop.report with
          pathClosureErrors := loop.report.pathClosureErrors ++ [(path, e)] } } :=
  { books with
    pushes := by
      refine (books.pushes_split found).trans ?_
      simp only [List.map_append, List.map_cons, List.map_nil, List.append_assoc,
        List.singleton_append]
      exact List.Perm.append_left _ List.perm_middle
    report := by
      show _ = reportOf (led.closureErrors ++ [(path, e)]) led.handled
      rw [reportOf_closureError, ← books.report]
    stopping := fun h => absurd (main_of_selecting selecting) h
    reported := fun entry member =>
      absurd (main_of_selecting selecting) (by simp [(books.reported entry member).1]) }

/-- A computed closure: the unseen paths are submitted to the pool, and all the
hashes of the closure have then been seen. -/
theorem closureComputed (books : Books hash led loop) {i : ℕ} {path : P} (paths : List P)
    (selecting : loop.selecting = true) (found : loop.storeClosures[i]? = some path) :
    let fresh := unseen hash loop.seenStoreHashes paths
    let submitted := loop.pool.submitAll maxConcurrentStorePaths fresh
    Books hash
      { led with
        closures := led.closures ++ [(path, paths)]
        firstSeen := led.firstSeen ++ fresh
        started := led.started ++ submitted.2 }
      { Loop.withPool { loop with storeClosures := loop.storeClosures.eraseIdx i } submitted.1 with
        seenStoreHashes := loop.seenStoreHashes ∪ (paths.map hash).toFinset } := by
  intro fresh submitted
  have keys : (led.firstSeen.map hash).toFinset = loop.seenStoreHashes := books.seen.symm
  exact {
    pushes := by
      refine (books.pushes_split found).trans ?_
      simp [Loop.withPool]
    pool := books.pool.submitAll fresh
    distinct := by
      have := nodup_keys_append_unseen hash paths books.distinct
      rwa [keys] at this
    seen := by
      show loop.seenStoreHashes ∪ (paths.map hash).toFinset =
        ((led.firstSeen ++ fresh).map hash).toFinset
      rw [List.map_append, List.toFinset_append, keys, union_keys_unseen]
    covered := by
      show loop.seenStoreHashes ∪ (paths.map hash).toFinset = _
      rw [books.covered]
      simp [Ledger.closureHashes]
    wanted := by
      intro path' member
      rcases List.mem_append.mp member with before | now
      · obtain ⟨entry, computed, inside⟩ := books.wanted path' before
        exact ⟨entry, List.mem_append_left _ computed, inside⟩
      · exact ⟨(path, paths), List.mem_append_right _ (List.mem_singleton_self _),
          (unseen_sublist hash _ paths).subset now⟩
    report := books.report
    stopping := fun h => absurd (main_of_selecting selecting) h
    emptied := fun h => absurd (main_of_selecting selecting)
      (by simp [show loop.phase = Phase.finished from h])
    reported := books.reported }

/-- A completed handler: the pool starts the next path, and the report grows. -/
theorem completePath (books : Books hash led loop) {i : ℕ} {path : P} (result : HandleResult H)
    (found : loop.handleStorePaths[i]? = some path) (going : loop.phase ≠ .finished) :
    Books hash
      { led with
        started := led.started ++ (loop.pool.retire i).2
        handled := led.handled ++ [(path, result)] }
      { loop.withPool (loop.pool.retire i).1 with
        report := loop.report.record path result } := by
  obtain ⟨valid, rfl⟩ := List.getElem?_eq_some_iff.mp found
  exact { books with
    pool := by
      rw [List.map_append]
      exact books.pool.retire found
    report := by
      show _ = reportOf led.closureErrors (led.handled ++ [(_, result)])
      rw [reportOf_concat, ← books.report]
    emptied := fun h => absurd h going
    reported := fun entry member => absurd (books.reported entry member).1 going }

/-- The main loop is left.  It is left only when no closure is awaited and a stop has been
received, which is what the drain relies on. -/
theorem leaveLoop (books : Books hash led loop) (main : loop.phase = .mainLoop)
    (done : loop.selecting = false) : Books hash led { loop with phase := .draining } :=
  { books with
    stopping := fun _ =>
      show loop.storeClosures = [] ∧ loop.stopProgressWriter.isSome from
        stopped_of_not_selecting main done
    emptied := by rintro ⟨⟩
    reported := fun entry member =>
      absurd (books.reported entry member).1 (by simp [main]) }

/-- The report is written.  It is the report of the loop as it is then. -/
theorem finish (books : Books hash led loop) (writer : ConnId) (draining : loop.phase = .draining)
    (idle : loop.handleStorePaths = []) :
    Books hash { led with reports := led.reports ++ [(writer, loop.report)] }
      { loop with phase := .finished } :=
  { books with
    stopping := fun _ => books.stopping (by simp [draining])
    emptied := fun _ => idle
    reported := by
      intro entry member
      rcases List.mem_append.mp member with earlier | now
      · exact absurd (books.reported entry earlier).1 (by simp [draining])
      · rw [List.mem_singleton.mp now]
        exact ⟨rfl, rfl⟩ }

/-- Outputs that no column of the ledger counts. -/
theorem uncounted (books : Books hash led loop) :
    Books hash (led ++ ⟨[], [], [], [], [], [], []⟩) loop := by
  simpa only [Ledger.append_mk, List.append_nil] using books

/-- **Every effect of an event keeps the books.** -/
theorem effect {trace out : List (Obs P C H R)} {loop' : Loop P K C H}
    (books : Books hash (ledger trace) loop) (effect : Effect hash loop loop' out) :
    Books hash (ledger (trace ++ out)) loop' := by
  rw [ledger_append]
  cases effect with
  | idle => exact books.uncounted
  | connected c => exact books.uncounted
  | sent c item => exact books.uncounted
  | clientClosed c => exact books.uncounted
  | rxError e => exact books.uncounted
  | push path selecting =>
      show Books hash (ledger trace ++ ⟨[path], [], [], [], [], [], []⟩) _
      simp only [Ledger.append_mk, List.append_nil]
      exact books.push path selecting
  | stop writer selecting =>
      -- the writer that is dropped is no entry of the ledger
      have silent : ledger ((Obs.received (.stop writer) : Obs P C H R) ::
          loop.stopProgressWriter.toList.map .writerClosed) = ⟨[], [], [], [], [], [], []⟩ := by
        rcases loop.stopProgressWriter with _ | old <;> rfl
      rw [silent]
      exact (books.stop writer selecting).uncounted
  | closureFailed i path e selecting found =>
      show Books hash (ledger trace ++ ⟨[], [(path, e)], [], [], [], [], []⟩) _
      simp only [Ledger.append_mk, List.append_nil]
      exact books.closureFailed e selecting found
  | closureComputed i path paths selecting found =>
      obtain ⟨state, sched⟩ := schedulePaths_eq (R := R) hash
        { loop with storeClosures := loop.storeClosures.eraseIdx i } paths
      rw [state, ledger_cons, sched.ledger_eq]
      show Books hash (ledger trace ++ ⟨[], [], [(path, paths)], _, _, [], []⟩) _
      simp only [Ledger.append_mk, List.append_nil]
      exact books.closureComputed paths selecting found
  | handled i path result selecting found =>
      obtain ⟨state, sched⟩ := completePath_eq (R := R) loop i path result
      rw [state, ledger_cons, sched.ledger_eq]
      show Books hash (ledger trace ++ ⟨[], [], [], [], _, [(path, result)], []⟩) _
      simp only [Ledger.append_mk, List.append_nil]
      exact books.completePath result found (by simp [main_of_selecting selecting])
  | leaveLoop ok main done => exact (books.leaveLoop main done).uncounted
  | drained i path result ok draining found =>
      obtain ⟨state, sched⟩ := completePath_eq (R := R) loop i path result
      rw [state, ledger_cons, ledger_cons (.handled path result), sched.ledger_eq]
      show Books hash (ledger trace ++ ⟨[], [], [], [], _, [(path, result)], []⟩) _
      simp only [Ledger.append_mk, List.append_nil]
      exact books.completePath result found (by simp [draining])
  | finish writer ok draining idle requested =>
      show Books hash (ledger trace ++ ⟨[], [], [], [], [], [], [(writer, loop.report)]⟩) _
      simp only [Ledger.append_mk, List.append_nil]
      exact books.finish writer draining idle

end Books

/-- The books are kept along every run. -/
theorem run_books {is : List (Input P C H R)} {s : State P K C H R} {trace : List (Obs P C H R)}
    (hrun : (machine hash).run init is = some (s, trace)) : Books hash (ledger trace) s.loop := by
  have start : Books hash (ledger ([] : List (Obs P C H R))) (init : State P K C H R).loop :=
    Books.initial
  have := (machine hash).run_invariant
    (I := fun s trace => Books hash (ledger trace) s.loop)
    (fun s trace i s' out books hstep => books.effect (step_effect hash hstep)) start hrun
  simpa using this

/-! ## The last state -/

/-- The work of a run is conserved in its final report. -/
structure WorkConserved (led : Ledger P C H) (loop : Loop P K C H)
    (report : ActionReport P C H) : Prop where
  /-- Every push received has left one closure error or its closure. -/
  pushes : led.pushes.Perm
    (report.pathClosureErrors.map Prod.fst ++ led.closures.map Prod.fst)
  /-- The closure errors are those of the failed closures, one each. -/
  closureErrors : report.pathClosureErrors = led.closureErrors
  /-- One handling has been started for each hash of the closures. -/
  startedOnce : (led.started.map hash).Nodup
  startedExactly : (led.started.map hash).toFinset = led.closureHashes hash
  /-- Every handling started has been recorded once. -/
  recorded : (led.handled.map Prod.fst).Perm led.started
  pathsPushed : report.numPathsPushed = led.handled.countP fun entry => wasPushed entry.2
  pathsSkipped : report.numPathsSkipped = led.handled.countP fun entry => wasSkipped entry.2
  handlingErrors : report.pathHandlingErrors = led.handled.filterMap failure
  bytesPushed : report.numBytesPushed = (led.handled.map fun entry => bytesPushed entry.2).sum
  /-- The counters add up to the number of hashes. -/
  total : report.numPathsPushed + report.numPathsSkipped + report.pathHandlingErrors.length =
    (led.closureHashes hash).card
  /-- Nothing is left. -/
  emptied : loop.storeClosures = [] ∧ loop.handleStorePaths = [] ∧
    loop.pendingHandleStorePaths = []
  /-- The counters are functions of the hashes and their outcomes. -/
  orderFree : ∀ outcome : K → HandleResult H,
    (∀ entry ∈ led.handled, entry.2 = outcome (hash entry.1)) →
      report.numPathsPushed =
          ((led.closureHashes hash).filter fun k => wasPushed (outcome k)).card ∧
        report.numPathsSkipped =
          ((led.closureHashes hash).filter fun k => wasSkipped (outcome k)).card ∧
        report.pathHandlingErrors.length =
          ((led.closureHashes hash).filter fun k => hasFailed (outcome k)).card ∧
        report.numBytesPushed =
          ∑ k ∈ led.closureHashes hash, EventLoop.bytesPushed (outcome k)

section Counting

variable {hash} {led : Ledger P C H}

/-- Counting the handlings of distinct paths is counting their hashes. -/
theorem countP_outcomes {keys : Finset K} {outcome : K → HandleResult H}
    (nodup : ((led.handled.map Prod.fst).map hash).Nodup)
    (all : ((led.handled.map Prod.fst).map hash).toFinset = keys)
    (same : ∀ entry ∈ led.handled, entry.2 = outcome (hash entry.1))
    (p : HandleResult H → Bool) :
    (led.handled.countP fun entry => p entry.2) = (keys.filter fun k => p (outcome k)).card := by
  calc (led.handled.countP fun entry => p entry.2)
      = led.handled.countP fun entry => p (outcome (hash entry.1)) :=
        List.countP_congr fun entry member => by rw [same entry member]
    _ = (((led.handled.map Prod.fst).map hash).filter fun k => p (outcome k)).length := by
        rw [← List.countP_eq_length_filter, List.map_map, List.countP_map]
        rfl
    _ = (keys.filter fun k => p (outcome k)).card := by
        rw [← List.toFinset_card_of_nodup (nodup.filter _), List.toFinset_filter, all]

/-- Adding up over the handlings of distinct paths is adding up over their
hashes. -/
theorem sum_outcomes {keys : Finset K} {outcome : K → HandleResult H}
    (nodup : ((led.handled.map Prod.fst).map hash).Nodup)
    (all : ((led.handled.map Prod.fst).map hash).toFinset = keys)
    (same : ∀ entry ∈ led.handled, entry.2 = outcome (hash entry.1)) :
    (led.handled.map fun entry => bytesPushed entry.2).sum =
      ∑ k ∈ keys, bytesPushed (outcome k) := by
  rw [← all, List.sum_toFinset _ nodup, List.map_map, List.map_map]
  congr 1
  refine List.map_congr_left fun entry member => ?_
  show bytesPushed entry.2 = bytesPushed (outcome (hash entry.1))
  rw [same entry member]

/-- The failed handlings are those with an entry among the errors. -/
theorem length_failures (handled : List (P × HandleResult H)) :
    (handled.filterMap failure).length = handled.countP fun entry => hasFailed entry.2 := by
  induction handled with
  | nil => rfl
  | cons entry rest ih =>
      obtain ⟨path, e | ok⟩ := entry
      · rw [List.filterMap_cons_some (show failure (path, Except.error e) = some (path, e) from rfl),
          List.countP_cons_of_pos rfl, List.length_cons, ih]
      · rw [List.filterMap_cons_none rfl, List.countP_cons_of_neg (by simp [hasFailed]), ih]

end Counting

/-- **Conservation of work.**  A run that has reached `report_final_report`, with
fewer than `2 ^ 32` distinct hashes and less than `2 ^ 64` bytes, has lost and
repeated nothing.

All of it is read off the invariant `Books` where it says least: in the last phase nothing
is queued, nothing is running and no closure is awaited, so what has been seen is what has
been handled.  The two bounds are those of the counters, which wrap around in the model as in
the code.  `orderFree` compares with any function from hashes to outcomes: since each
hash is handled once, sums over the handled paths are sums over a set of hashes. -/
theorem work_conserved {is : List (Input P C H R)} {s : State P K C H R}
    {trace : List (Obs P C H R)} {writer : ConnId} {report : ActionReport P C H} {ok : Bool}
    (hrun : (machine hash).run init is = some (s, trace))
    (reported : .finalReport writer report ok ∈ trace)
    (few : ((ledger trace).closureHashes hash).card < 2 ^ 32)
    (small : ((ledger trace).handled.map fun entry => bytesPushed entry.2).sum < 2 ^ 64) :
    WorkConserved hash (ledger trace) s.loop report := by
  have books := run_books hash hrun
  have entry : (writer, report) ∈ (ledger trace).reports :=
    List.mem_filterMap.mpr ⟨_, reported, rfl⟩
  obtain ⟨finished, rfl⟩ := books.reported _ entry
  have idle := books.emptied finished
  obtain ⟨noneWaiting, allStarted, allHandled⟩ :=
    books.pool.retired_of_idle (by decide) idle
  have keys : ((ledger trace).firstSeen.map hash).toFinset = (ledger trace).closureHashes hash :=
    books.seen.symm.trans books.covered
  have handledKeys := allHandled.symm.map hash
  -- each hash of the closure is handled once, so the outcomes can be counted
  have nodup : (((ledger trace).handled.map Prod.fst).map hash).Nodup :=
    handledKeys.nodup_iff.mpr books.distinct
  have all : (((ledger trace).handled.map Prod.fst).map hash).toFinset =
      (ledger trace).closureHashes hash :=
    (List.toFinset_eq_of_perm _ _ handledKeys).trans keys
  have length : (ledger trace).handled.length = ((ledger trace).closureHashes hash).card := by
    rw [← all, List.toFinset_card_of_nodup nodup, List.length_map, List.length_map]
  obtain ⟨bytes, pushed, skipped⟩ :=
    reportOf_counters (ledger trace).closureErrors (ledger trace).handled
  obtain ⟨closureErrs, handlingErrs⟩ :=
    reportOf_errors (ledger trace).closureErrors (ledger trace).handled
  rw [← books.report] at bytes pushed skipped closureErrs handlingErrs
  rw [Nat.mod_eq_of_lt small] at bytes
  rw [Nat.mod_eq_of_lt (lt_of_le_of_lt (List.countP_le_length.trans length.le) few)]
    at pushed skipped
  have noClosure := (books.stopping (by simp [finished])).1
  exact {
    pushes := by
      have := books.pushes
      rwa [noClosure, List.append_nil, ← closureErrs] at this
    closureErrors := closureErrs
    startedOnce := by
      rw [allStarted]
      exact books.distinct
    startedExactly := by
      rw [allStarted]
      exact keys
    recorded := by
      rw [allStarted]
      exact allHandled.symm
    pathsPushed := pushed
    pathsSkipped := skipped
    handlingErrors := handlingErrs
    bytesPushed := bytes
    total := by
      rw [pushed, skipped, handlingErrs, outcomes_partition, length]
    emptied := ⟨noClosure, idle, noneWaiting⟩
    orderFree := by
      intro outcome same
      rw [pushed, skipped, handlingErrs, bytes, length_failures]
      exact ⟨countP_outcomes nodup all same wasPushed, countP_outcomes nodup all same wasSkipped,
        countP_outcomes nodup all same hasFailed, sum_outcomes nodup all same⟩ }

/-- One client pushes a path whose closure repeats a path, another requests a
stop; one path is handled before the main loop is left and one after. -/
def twoPathsRun : List (Input ℕ Unit Unit Unit) :=
  [.connect 0, .send 0 (.ok (.pushStorePath 7)), .close 0, .accept, .handleIo 0, .recv,
    .closureDone 0 (.ok [7, 9, 7]), .connect 1, .send 1 (.ok .stopDaemon),
    .pathDone 1 (.ok none), .accept, .handleIo 1, .recv, .leaveLoop true,
    .drainDone 0 (.ok (some ⟨5, by decide, by decide⟩)) true, .finish true]

/-- A push with two paths in its closure, one of them twice: one is pushed and the other skipped. -/
theorem work_conserved_two_paths :
    ∃ (s : State ℕ ℕ Unit Unit Unit) (trace : List (Obs ℕ Unit Unit Unit)),
      (machine id).run init twoPathsRun = some (s, trace) ∧
        s.loop.report.numBytesPushed = 5 ∧ s.loop.report.numPathsPushed = 1 ∧
        s.loop.report.numPathsSkipped = 1 ∧
        WorkConserved id (ledger trace) s.loop s.loop.report := by
  refine ⟨_, _, rfl, rfl, rfl, rfl, ?_⟩
  exact work_conserved id (show (machine id).run init twoPathsRun = some (_, _) from rfl)
    (show Obs.finalReport 1 _ true ∈ _ by simp) (by decide) (by decide)

end EventLoop

end CacheAction
