import CacheAction.EventLoop.Conservation

/-!
# What the final report accounts for

`AccountsFor` says of a report that it is what the handlings add up to, and that the
handlings are those of the closures: one for each store hash, none lost and none
repeated.  The books of the event loop give it for every final report, whatever
the number of paths and bytes (`Books.accountsFor`), so that it holds wherever a run
of the event loop is part of a run of something larger.
-/

namespace CacheAction

namespace EventLoop

variable {P K C H : Type} [DecidableEq K] (hash : P → K)

/-- The report accounts for everything in the ledger. -/
structure AccountsFor (led : Ledger P C H) (report : ActionReport P C H) : Prop where
  /-- Every push received has left one closure error or its closure. -/
  pushes : led.pushes.Perm (led.closureErrors.map Prod.fst ++ led.closures.map Prod.fst)
  /-- One handling has been started for each hash of the closures, -/
  startedOnce : (led.started.map hash).Nodup
  startedExactly : (led.started.map hash).toFinset = led.closureHashes hash
  /-- and each has been recorded once. -/
  recorded : (led.handled.map Prod.fst).Perm led.started
  /-- The report is what the results add up to. -/
  report : report = reportOf led.closureErrors led.handled

variable {hash} {led : Ledger P C H} {loop : Loop P K C H}

/-- No two paths with the same hash have been started. -/
theorem Books.started_distinct (books : Books hash led loop) : (led.started.map hash).Nodup := by
  have distinct := books.distinct
  rw [← books.pool.queue, List.map_append] at distinct
  exact distinct.of_append_left

/-- **A final report accounts for everything**, and nothing is left to handle. -/
theorem Books.accountsFor (books : Books hash led loop) {writer : ConnId}
    {report : ActionReport P C H} (entry : (writer, report) ∈ led.reports) :
    AccountsFor hash led report ∧ loop.handleStorePaths = [] := by
  obtain ⟨finished, rfl⟩ := books.reported _ entry
  have idle := books.emptied finished
  obtain ⟨-, allStarted, allHandled⟩ := books.pool.retired_of_idle (by decide) idle
  have noClosure := (books.stopping (by simp [finished])).1
  refine ⟨⟨?_, books.started_distinct, ?_, ?_, books.report⟩, idle⟩
  · have pushes := books.pushes
    rwa [noClosure, List.append_nil] at pushes
  · rw [allStarted, ← books.covered, books.seen]
  · rw [allStarted]
    exact allHandled.symm

end EventLoop

end CacheAction
