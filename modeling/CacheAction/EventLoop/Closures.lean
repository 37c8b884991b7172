import CacheAction.EventLoop.SocketWork

/-!
# Where the closures come from

The ledger of a run says which closures have been computed and which could not be.
Both are answers that `run` has got for a store path whose closure it was waiting for, and
the paths that it schedules are paths of these closures (`socketStep_closures`).

A task is never asked where its path comes from.  This is how what a store has answered to the
event loop is known of the paths that the tasks handle.
-/

namespace CacheAction

namespace EventLoop

variable {P K C H ε π : Type}

/-- The answer to the `i`-th closure that is waited for. -/
def closureAnswer : SocketInput P C H ε π → Option (ℕ × Except C (List P))
  | .daemon (.closureDone i result) => some (i, result)
  | _ => none

/-- What a step does with the closures, when its input brings one or not. -/
inductive ClosureStep (answer : Option (ℕ × Except C (List P))) (loop : Loop P K C H)
    (led : Ledger P C H) : Prop where
  | none (external : answer = none) (closures : led.closures = [])
      (errors : led.closureErrors = []) (fresh : led.firstSeen = [])
  | failed {i path e} (input : answer = some (i, .error e))
      (found : loop.storeClosures[i]? = some path) (closures : led.closures = [])
      (errors : led.closureErrors = [(path, e)]) (fresh : led.firstSeen = [])
  | computed {i path paths} (input : answer = some (i, .ok paths))
      (found : loop.storeClosures[i]? = some path) (closures : led.closures = [(path, paths)])
      (errors : led.closureErrors = []) (fresh : led.firstSeen.Sublist paths)

section Closures

variable [DecidableEq K] {parse : String → Except π P} {hash : P → K}

/-- **A closure in the ledger is the answer to a path that was waiting for it**, and only
paths of it are scheduled. -/
theorem step_closures {s s' : State P K C H (ReceiveError ε π)}
    {input : Input P C H (ReceiveError ε π)} {out : List (Obs P C H (ReceiveError ε π))}
    (h : step hash s input = some (s', out)) :
    ClosureStep (closureAnswer (.daemon input : SocketInput P C H ε π)) s.loop
      (ledger out) := by
  cases step_turn hash h with
  | connect | send | close | handleIo | accept | leaveLoop | finish =>
      exact .none rfl rfl rfl rfl
  | @recv message rest selecting channel =>
      obtain ⟨pushes, read⟩ := recv_ledger s.loop message
      rw [read]
      exact .none rfl rfl rfl rfl
  | closureFailed selecting found => exact .failed rfl found rfl rfl rfl
  | @closureComputed i path paths selecting found =>
      -- those that have been seen before are left out
      obtain ⟨-, sched⟩ := schedulePaths_eq (R := ReceiveError ε π) hash
        { s.loop with storeClosures := s.loop.storeClosures.eraseIdx i } paths
      refine .computed rfl found ?_ ?_ ?_ <;> rw [ledger_cons, sched.ledger_eq]
      · rfl
      · rfl
      · exact unseen_sublist hash _ paths
  | @pathDone i path result selecting found =>
      obtain ⟨-, sched⟩ := completePath_eq (R := ReceiveError ε π) s.loop i path result
      refine .none rfl ?_ ?_ ?_ <;> rw [ledger_cons, sched.ledger_eq] <;> rfl
  | @drainDone i path result ok draining found =>
      obtain ⟨-, sched⟩ := completePath_eq (R := ReceiveError ε π) s.loop i path result
      refine .none rfl ?_ ?_ ?_ <;>
        rw [ledger_cons, ledger_cons (.handled path result), sched.ledger_eq] <;> rfl

/-- The same on the sockets. -/
theorem socketStep_closures {s s' : Sockets P K C H ε π} {input : SocketInput P C H ε π}
    {out : List (SocketObs P C H ε π)}
    (valid : ∀ c conn, s.streams c = some conn → conn.rx.Valid)
    (h : s.step parse hash input = some (s', out)) :
    ClosureStep (closureAnswer input) s.loop (ledger (out.filterMap SocketObs.seen)) := by
  cases socketStep_run hash valid h with
  | silent outside loop nothing =>
      have external : closureAnswer input = none := by
        cases input with
        | daemon input => exact absurd rfl (outside input)
        | _ => rfl
      rw [nothing]
      exact .none external rfl rfl rfl
  | run hstep loop same =>
      rw [same]
      exact step_closures hstep

end Closures

end EventLoop

end CacheAction
