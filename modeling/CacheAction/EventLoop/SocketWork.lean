import CacheAction.EventLoop.FinalReport
import CacheAction.EventLoop.SocketSimulation

/-!
# Conservation of work on the sockets

Every run on the sockets is matched by one with messages, so that the books of the
event loop are kept on the sockets as well (`sockets_books`), and every final report
accounts for all the work (`sockets_work_conserved`).

Step by step, only the inputs of `run` itself do anything to its loop and to the ledger
(`socketStep_run`).

This is what the simulation is for.  The books are an invariant of the machine with messages,
whose clients are queues; on sockets each of its steps would have to be checked again with
receivers, buffers and pieces of lines around it.  Since the matching run ends in the *same*
loop and has the same ledger, its books are those of the run on sockets, word for word.
-/

namespace CacheAction

namespace EventLoop

variable {P K C H ε π : Type}

section Work

variable [DecidableEq K] (hash : P → K) {parse : String → Except π P}

omit [DecidableEq K] in
/-- The ledger does not look at the clients. -/
theorem ledger_seen {R : Type} (trace : List (Obs P C H R)) :
    ledger (trace.filterMap Obs.seen) = ledger trace := by
  ext1 <;>
  · simp only [ledger, List.filterMap_filterMap]
    congr 1
    funext o
    cases o <;> rfl

omit [DecidableEq K] in
/-- What is seen of a run on sockets, `run` has done. -/
theorem daemon_mem_of_seen {trace : List (SocketObs P C H ε π)}
    {o : Obs P C H (ReceiveError ε π)} (member : o ∈ trace.filterMap SocketObs.seen) :
    .daemon o ∈ trace := by
  obtain ⟨o', inside, same⟩ := List.mem_filterMap.mp member
  cases o' with
  | daemon o' =>
      simp only [SocketObs.seen, Obs.seen, Option.ite_none_left_eq_some, Option.some.injEq] at same
      obtain ⟨-, rfl⟩ := same
      exact inside
  | _ => cases same

/-- What a step on the sockets does to the loop and to the ledger: nothing, or what the
step of `run` does. -/
inductive RunStep (s s' : Sockets P K C H ε π) (led : Ledger P C H) :
    SocketInput P C H ε π → Prop where
  | silent {input} (outside : ∀ i, input ≠ .daemon i) (loop : s'.loop = s.loop)
      (nothing : led = ledger ([] : List (Obs P C H (ReceiveError ε π)))) :
      RunStep s s' led input
  | run {input t out}
      (hstep : step hash (s.withClients fun _ => none) input = some (t, out))
      (loop : s'.loop = t.loop) (same : led = ledger out) : RunStep s s' led (.daemon input)

/-- The clients and the tasks of the connections leave the loop alone. -/
theorem socketStep_run {s s' : Sockets P K C H ε π} {input : SocketInput P C H ε π}
    {out : List (SocketObs P C H ε π)}
    (valid : ∀ c conn, s.streams c = some conn → conn.rx.Valid)
    (h : s.step parse hash input = some (s', out)) :
    RunStep hash s s' (ledger (out.filterMap SocketObs.seen)) input := by
  have polled : ∀ {c conn}, PollEffect parse s c conn s' out →
      s'.loop = s.loop ∧ out.filterMap SocketObs.seen = [] := by
    intro c conn effect
    have handled : ∀ (s' : Sockets P K C H ε π) (item : Item P ε π), s'.loop = s.loop →
        (s'.handleItem c item).1.loop = s.loop ∧
          (s'.handleItem c item).2.filterMap SocketObs.seen = [] := by
      intro s' item same
      refine ⟨(s'.handleItem_loop c item).trans same, ?_⟩
      rcases item with e | (path | _) <;> rfl
    cases effect with
    | pending => exact ⟨rfl, rfl⟩
    | done => exact ⟨rfl, rfl⟩
    | ended => exact ⟨rfl, rfl⟩
    | item => exact handled _ _ rfl
    | failure => exact handled _ _ rfl
  cases input with
  | connect c =>
      replace h : s.connect c = some (s', out) := h
      unfold Sockets.connect at h
      split at h <;> cases h
      exact .silent (by simp) rfl rfl
  | write c bytes =>
      replace h : s.write c bytes = some (s', out) := h
      unfold Sockets.write at h
      split at h
      · cases h
      · split_ifs at h
        cases h
        exact .silent (by simp) rfl rfl
  | close c ending =>
      replace h : s.close c ending = some (s', out) := h
      unfold Sockets.close at h
      split at h
      · cases h
      · split_ifs at h
        cases h
        exact .silent (by simp) rfl rfl
  | pollIo c schedule =>
      obtain ⟨-, conn, -, effect⟩ := pollIo_effect (valid c) h
      obtain ⟨same, unseen⟩ := polled effect
      rw [unseen]
      exact .silent (by simp) same rfl
  | daemon input =>
      simp only [Sockets.step, Option.ite_none_right_eq_some, Option.map_eq_some_iff] at h
      obtain ⟨-, ⟨t, outputs⟩, done, heq⟩ := h
      cases heq
      refine .run done rfl ?_
      rw [List.filterMap_map]
      exact ledger_seen outputs

/-- The books are kept on the sockets. -/
theorem sockets_books {is : List (SocketInput P C H ε π)} {s : Sockets P K C H ε π}
    {trace : List (SocketObs P C H ε π)}
    (hrun : (socketMachine parse hash).run Sockets.init is = some (s, trace)) :
    Books hash (ledger (trace.filterMap SocketObs.seen)) s.loop := by
  obtain ⟨js, _, trace', hrun', ⟨clients, rfl, -⟩, seen⟩ :=
    (sockets_simulated hash).run related_init hrun
  have books := run_books hash hrun'
  rwa [← ledger_seen, seen] at books

/-- **Every final report on the sockets accounts for all the work**, whatever the pieces in
which the bytes have come.

The account speaks of what the event loop has received and done, and that is the same in
the run with messages (`sockets_refine_messages`), where it is kept. -/
theorem sockets_work_conserved {is : List (SocketInput P C H ε π)} {s : Sockets P K C H ε π}
    {trace : List (SocketObs P C H ε π)} {writer : ConnId} {report : ActionReport P C H}
    {ok : Bool} (hrun : (socketMachine parse hash).run Sockets.init is = some (s, trace))
    (reported : .daemon (.finalReport writer report ok) ∈ trace) :
    AccountsFor hash (ledger (trace.filterMap SocketObs.seen)) report ∧
      s.loop.handleStorePaths = [] := by
  have entry : (writer, report) ∈ (ledger (trace.filterMap SocketObs.seen)).reports :=
    List.mem_filterMap.mpr ⟨_, List.mem_filterMap.mpr ⟨_, reported, rfl⟩, rfl⟩
  exact (sockets_books hash hrun).accountsFor entry

end Work

/-- The report of that run is about one path. -/
theorem sockets_work_conserved_split_line :
    ∃ (s : Sockets String String Unit Unit Unit Unit) (trace : List (SocketObs _ _ _ _ _))
      (writer : ConnId) (report : ActionReport String Unit Unit) (ok : Bool),
      (socketMachine anyLine id).run Sockets.init splitLineRun = some (s, trace) ∧
        .daemon (.finalReport writer report ok) ∈ trace ∧
        AccountsFor id (ledger (trace.filterMap SocketObs.seen)) report ∧
        s.loop.handleStorePaths = [] := by
  have read : (((socketMachine (K := String) anyLine id).run Sockets.init splitLineRun).map
      fun next => (ledger (next.2.filterMap SocketObs.seen)).reports.length) = some 1 := by
    decide +kernel
  obtain ⟨⟨s, trace⟩, hrun, one⟩ := Option.map_eq_some_iff.mp read
  dsimp only at one
  obtain ⟨⟨writer, report⟩, entry⟩ := List.exists_mem_of_length_pos
    (l := (ledger (trace.filterMap SocketObs.seen)).reports) (by omega)
  obtain ⟨o, member, isReport⟩ := List.mem_filterMap.mp entry
  cases o with
  | finalReport writer' report' ok =>
      cases isReport
      exact ⟨s, trace, writer, report, ok, hrun, daemon_mem_of_seen member,
        sockets_work_conserved id hrun (daemon_mem_of_seen member)⟩
  | _ => cases isReport

end EventLoop

end CacheAction
