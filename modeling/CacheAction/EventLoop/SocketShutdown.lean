import CacheAction.EventLoop.Shutdown
import CacheAction.EventLoop.SocketWork

/-!
# A daemon that is left alone, on its sockets

With messages, a connection that has not been read from has a queue of them.  On sockets
there are bytes: what is left to do for a connection is what these decode to, and a poll
that is pending has at most moved some of them into the buffer of the receiver.  So every
step of the daemon leaves less work (`Sockets.workload`), or fewer bytes before the
receivers (`ownStep_cases`).

A stop request that has been written stays on its way (`StopWritten.step`), and the task of
its connection can always be polled (`exists_poll`).

### Counting items and not bytes

`CacheAction.EventLoop.Shutdown` measures a connection by the messages in its queue.  The
same measure on sockets would be the number of unread bytes, and it would be wrong: the
receiver takes bytes into its buffer without yielding anything, and then yields several items
without reading a byte.  What the reference decoder makes of *all* the bytes that have not
been turned into items, those in the buffer and those in the socket, does not depend on where
they are (`Socketed.load`).  A poll that yields an item takes one off that list, and a poll
that is pending leaves the list as it is.

The unread bytes come in last, as a measure of their own (`Sockets.unread`): a poll that
yields nothing has at least moved some of them, unless the socket was not ready.  This is why
`ownStep_cases` has two levels, which the completion of the whole daemon puts around the work
of the tasks (`CacheAction.Daemon.Completion`).

The ending of a stream that is still open is taken to be `eof`.  It is only used to count: an
ending that turns out to be a failure adds one item, and by then the client has acted, which
is not a step of the daemon's own.
-/

namespace CacheAction

namespace EventLoop

variable {P K C H ε π : Type}

/-- The input is not one of a client. -/
def SocketInput.own : SocketInput P C H ε π → Bool
  | .connect _ => false
  | .write _ _ => false
  | .close _ _ => false
  | _ => true

/-- The input is not a poll of a socket that is not ready.  Such a poll may be made at any time and
any number of times, so a statement about completion cannot count it. -/
def SocketInput.Ready : SocketInput P C H ε π → Prop
  | .pollIo _ schedule => schedule 0 ≠ .pending
  | _ => True

section Measure

variable (parse : String → Except π P)

/-- What the task of a connection still has to do: the items it will yield, and its return.
After the last item (`isDone`) only the return is left. -/
def Socketed.load (conn : Socketed ε) : ℕ :=
  if conn.rx.isDone then 1
  else (decode parse (conn.ending.getD .eof) conn.bytes : List (Item P ε π)).length + 1

namespace Sockets

variable (s : Sockets P K C H ε π)

/-- The same for a task, whatever there is of its connection. -/
def load (c : ConnId) : ℕ :=
  match s.streams c with
  | none => 1
  | some conn => conn.load parse

/-- The work that is left, in the order in which it makes other work.  A connection that is
accepted becomes a task, an item becomes a message in the channel, a message becomes a
closure, and a closure becomes outstanding paths; each of these steps takes one off a
component and adds to those after it only. -/
def workload : ℕ ×ₗ ℕ ×ₗ ℕ ×ₗ ℕ ×ₗ ℕ ×ₗ ℕ :=
  toLex (s.loop.phase.rank, toLex (s.listener.length,
    toLex ((s.tasks.map (s.load parse)).sum, toLex (s.channel.length,
      toLex (s.loop.storeClosures.length, (outstanding s.loop).length)))))

/-- The bytes that the task of connection `c` has not read. -/
def pending (c : ConnId) : ℕ :=
  match s.streams c with
  | none => 0
  | some conn => conn.unread.length

/-- The bytes that have not been read. -/
def unread : ℕ :=
  (s.tasks.map s.pending).sum

end Sockets

end Measure

section Steps

variable {parse : String → Except π P} {s s' : Sockets P K C H ε π} {c : ConnId}
  {conn conn' : Socketed ε}

/-- The return of a task is always left. -/
theorem Socketed.load_pos (conn : Socketed ε) : 0 < conn.load parse := by
  unfold Socketed.load
  split <;> omega

theorem Sockets.load_pos (s : Sockets P K C H ε π) (c : ConnId) : 0 < s.load parse c := by
  unfold Sockets.load
  split
  · exact Nat.zero_lt_one
  · exact Socketed.load_pos _

/-- A poll changes what is left for its own connection only. -/
theorem Sockets.load_withStream (s : Sockets P K C H ε π) (c d : ConnId) (conn : Socketed ε) :
    (s.withStream c conn).load parse d = if d = c then conn.load parse else s.load parse d := by
  unfold Sockets.load Sockets.withStream
  split_ifs with same
  · subst same
    simp
  · simp [Function.update_of_ne same]

/-- A task that has returned has nothing left to do. -/
theorem sum_load_erase (running : c ∈ s.tasks) (found : s.streams c = some conn)
    (le : conn'.load parse ≤ conn.load parse) :
    ((s.tasks.erase c).map ((s.withStream c conn').load parse)).sum <
      (s.tasks.map (s.load parse)).sum := by
  have split := ((List.perm_cons_erase running).map (s.load parse)).sum_eq
  rw [split, List.map_cons, List.sum_cons]
  refine Nat.lt_of_le_of_lt (List.sum_le_sum fun d _ => ?_)
    (Nat.lt_add_of_pos_left (s.load_pos c))
  rw [Sockets.load_withStream]
  split_ifs with same
  · subst same
    rwa [Sockets.load, found]
  · exact Nat.le_refl _

/-- A task that has handled an item has less left to do. -/
theorem sum_load_lt (running : c ∈ s.tasks) (found : s.streams c = some conn)
    (less : conn'.load parse < conn.load parse) :
    (s.tasks.map ((s.withStream c conn').load parse)).sum <
      (s.tasks.map (s.load parse)).sum := by
  have before : s.load parse c = conn.load parse := by rw [Sockets.load, found]
  refine List.sum_lt_sum _ _ (fun d _ => ?_) ⟨c, running, ?_⟩
  · rw [Sockets.load_withStream]
    split_ifs with same
    · subst same
      exact before ▸ Nat.le_of_lt less
    · exact Nat.le_refl _
  · rw [Sockets.load_withStream, if_pos rfl, before]
    exact less

/-- An item that has been yielded is not left any more. -/
theorem load_lt_of_front (item : Item P ε π) (active : conn.rx.isDone = false)
    (done : conn'.rx.isDone = Item.isLast item) (ending : conn'.ending = conn.ending)
    (front : decode parse (conn.ending.getD .eof) conn.bytes =
      item :: if item.isLast then [] else decode parse (conn.ending.getD .eof) conn'.bytes) :
    conn'.load parse < conn.load parse := by
  unfold Socketed.load
  rw [active, front, done, ending]
  cases item.isLast with
  | true => simp
  | false => simp

/-- A poll that is pending has read some bytes, or the socket was not ready. -/
theorem pollIo_pending {schedule : ℕ → ReadChoice}
    (valid : ∀ conn, s.streams c = some conn → conn.rx.Valid)
    (h : s.pollIo parse c schedule = some (s', [])) :
    c ∈ s.tasks ∧ ∃ conn conn', s.streams c = some conn ∧ s' = s.withStream c conn' ∧
      (conn'.unread.length < conn.unread.length ∨
        schedule 0 = .pending ∧ conn'.unread.length = conn.unread.length) := by
  unfold Sockets.pollIo at h
  split_ifs at h with running
  refine ⟨running, ?_⟩
  cases found : s.streams c with
  | none =>
      rw [found] at h
      cases h
  | some conn =>
      obtain ⟨result, rx, reader, polled, spec⟩ :=
        Receiver.pollNext_spec parse (valid conn found) (conn.reader schedule)
      simp only [found, polled] at h
      rcases result with (_ | item) | _
      · dsimp only at h
        split_ifs at h
        cases h
      · have nothing := congrArg Prod.snd (Option.some.inj h)
        rcases item with e | (path | _) <;> cases nothing
      · cases h
        refine ⟨conn, _, rfl, rfl, (spec.progress rfl).imp_right ?_⟩
        rintro ⟨unready, same⟩
        exact ⟨unready, by rw [same]; rfl⟩

/-- And the bytes of its own connection only. -/
theorem pending_withStream (found : s.streams c = some conn)
    (le : conn'.unread.length ≤ conn.unread.length) (d : ConnId) :
    (s.withStream c conn').pending d ≤ s.pending d := by
  unfold Sockets.pending Sockets.withStream
  by_cases same : d = c
  · subst same
    simpa [found] using le
  · simp [Function.update_of_ne same]

variable (conn') in
/-- Some bytes have been read, or none. -/
theorem unread_withStream (running : c ∈ s.tasks) (found : s.streams c = some conn) :
    (conn'.unread.length < conn.unread.length → (s.withStream c conn').unread < s.unread) ∧
      (conn'.unread.length = conn.unread.length → (s.withStream c conn').unread = s.unread) := by
  have here (conn'' : Socketed ε) : (s.withStream c conn'').pending c = conn''.unread.length := by
    simp [Sockets.pending, Sockets.withStream]
  constructor
  · intro fewer
    refine List.sum_lt_sum _ _
      (fun d _ => pending_withStream found (Nat.le_of_lt fewer) d) ⟨c, running, ?_⟩
    rw [here, Sockets.pending, found]
    exact fewer
  · intro same
    refine congrArg List.sum (List.map_congr_left fun d _ => ?_)
    by_cases this : d = c
    · subst this
      rw [here, Sockets.pending, found]
      exact same
    · simp [Sockets.pending, Sockets.withStream, Function.update_of_ne this]

/-- The task handles an item.  The channel becomes longer by that, and it comes after the tasks in
the order of the measure. -/
theorem workload_handleItem {item : Item P ε π} (running : c ∈ s.tasks)
    (found : s.streams c = some conn) (less : conn'.load parse < conn.load parse) :
    ((s.withStream c conn').handleItem c item).1.workload parse < s.workload parse := by
  have fewer : (((s.withStream c conn').handleItem c item).1.tasks.map
      (((s.withStream c conn').handleItem c item).1.load parse)).sum <
        (s.tasks.map (s.load parse)).sum := by
    rcases item with e | (path | _)
    · exact sum_load_lt running found less
    · exact sum_load_lt running found less
    · exact sum_load_erase running found (Nat.le_of_lt less)
  have listener : ((s.withStream c conn').handleItem c item).1.listener = s.listener := by
    rcases item with e | (path | _) <;> rfl
  refine Prod.Lex.toLex_lt_toLex.mpr (.inr ⟨by rw [Sockets.handleItem_loop]; rfl, ?_⟩)
  refine Prod.Lex.toLex_lt_toLex.mpr (.inr ⟨by rw [listener], ?_⟩)
  exact Prod.Lex.toLex_lt_toLex.mpr (.inl fewer)

/-- A poll leaves less work, unless it is pending. -/
theorem PollEffect.workload_lt {out : List (SocketObs P C H ε π)} (running : c ∈ s.tasks)
    (found : s.streams c = some conn) (effect : PollEffect parse s c conn s' out) :
    s'.workload parse < s.workload parse ∨ out = [] ∧ s'.workload parse = s.workload parse := by
  have erased (conn' : Socketed ε) (le : conn'.load parse ≤ conn.load parse) :
      ({ s.withStream c conn' with tasks := s.tasks.erase c } : Sockets P K C H ε π).workload
        parse < s.workload parse :=
    Prod.Lex.toLex_lt_toLex.mpr (.inr ⟨rfl, Prod.Lex.toLex_lt_toLex.mpr
      (.inr ⟨rfl, Prod.Lex.toLex_lt_toLex.mpr (.inl (sum_load_erase running found le))⟩)⟩)
  have unmoved {conn' : Socketed ε} (active : conn.rx.isDone = false)
      (active' : conn'.rx.isDone = false) (ending : conn'.ending = conn.ending)
      (same : conn'.bytes = conn.bytes) : conn'.load parse = conn.load parse := by
    unfold Socketed.load
    rw [active, active', ending, same]
  cases effect with
  | @pending conn' active valid active' ending same =>
      -- bytes have been moved into the buffer, and decode to the same items there
      refine .inr ⟨rfl, ?_⟩
      have loads : s.tasks.map ((s.withStream c conn').load parse) =
          s.tasks.map (s.load parse) := by
        refine List.map_congr_left fun d _ => ?_
        rw [Sockets.load_withStream]
        split_ifs with this
        · subst this
          rw [Sockets.load, found]
          exact unmoved active active' ending same
        · rfl
      unfold Sockets.workload
      rw [show (s.withStream c conn').tasks = s.tasks from rfl, loads]
      rfl
  | done done => exact .inl (erased conn (Nat.le_refl _))
  | ended active valid active' ending same =>
      exact .inl (erased _ (Nat.le_of_eq (unmoved active active' ending same)))
  | item active valid done ending front =>
      refine .inl (workload_handleItem running found ?_)
      refine load_lt_of_front _ active done ending ?_
      have now := front (conn.ending.getD .eof) []
      rwa [List.append_nil, List.append_nil] at now
  | @failure conn' e active valid done ending ended last =>
      refine .inl (workload_handleItem running found ?_)
      refine load_lt_of_front (.error (.io (.reader e))) active done ending ?_
      rw [ended]
      exact last

/-- What `run` itself does takes one off some component, and adds to later ones only.  It is the
effect of a step with messages, in front of no clients: a step of `run` does not look at
them. -/
theorem OwnEffect.socketWorkload_lt {t : State P K C H (ReceiveError ε π)}
    (effect : OwnEffect (s.withClients fun _ => none) t) :
    (s.after t).workload parse < s.workload parse := by
  simp only [Sockets.workload, Prod.Lex.toLex_lt_toLex]
  cases effect with
  | returned running found => cases found
  | forwarded running found => cases found
  | @accepted c rest waiting =>
      refine .inr ⟨rfl, .inl ?_⟩
      have before : s.listener = c :: rest := waiting
      rw [before]
      exact Nat.lt_succ_self rest.length
  | @received message rest channel =>
      have before : s.channel = message :: rest := channel
      refine .inr ⟨congrArg Phase.rank (recv_phase _ _), .inr ⟨rfl, .inr ⟨rfl, .inl ?_⟩⟩⟩
      rw [before]
      exact Nat.lt_succ_self rest.length
  | closureDone found phase closures writer =>
      obtain ⟨valid, -⟩ := List.getElem?_eq_some_iff.mp found
      refine .inr ⟨congrArg Phase.rank phase, .inr ⟨rfl, .inr ⟨rfl, .inr ⟨rfl, .inl ?_⟩⟩⟩⟩
      have fewer := congrArg List.length closures
      rw [List.length_eraseIdx_of_lt valid] at fewer
      exact fewer ▸ Nat.sub_lt (Nat.zero_lt_of_lt valid) Nat.zero_lt_one
  | pathDone phase closures fewer writer =>
      exact .inr ⟨congrArg Phase.rank phase,
        .inr ⟨rfl, .inr ⟨rfl, .inr ⟨rfl, .inr ⟨congrArg List.length closures, fewer⟩⟩⟩⟩⟩
  | leaveLoop main =>
      have before : s.loop.phase = .mainLoop := main
      refine .inl ?_
      rw [before]
      exact Nat.lt_succ_self 1
  | finish draining =>
      have before : s.loop.phase = .draining := draining
      refine .inl ?_
      rw [before]
      exact Nat.zero_lt_one

variable {hash : P → K} [DecidableEq K] {input : SocketInput P C H ε π}
  {out : List (SocketObs P C H ε π)}

/-- What `run` does by itself is no step of a client. -/
theorem own_of_ofRun {R : Type} {input : Input P C H R} (ofRun : input.ofRun = true) :
    input.own = true := by
  cases input <;> first | rfl | cases ofRun

/-- A step of `run` leaves less work. -/
theorem runStep_lt {input : Input P C H (ReceiveError ε π)}
    (h : s.step parse hash (.daemon input) = some (s', out)) :
    s'.workload parse < s.workload parse := by
  simp only [Sockets.step, Option.ite_none_right_eq_some, Option.map_eq_some_iff] at h
  obtain ⟨ofRun, ⟨t, outputs⟩, done, heq⟩ := h
  cases heq
  exact (step_own hash (own_of_ofRun ofRun) done).socketWorkload_lt

/-- **What a step of the daemon leaves**: less work, or the same but fewer bytes that have
not been read, unless it polls a socket that is not ready. -/
theorem ownStep_cases (own : input.own = true)
    (valid : ∀ c conn, s.streams c = some conn → conn.rx.Valid)
    (h : s.step parse hash input = some (s', out)) :
    s'.workload parse < s.workload parse ∨
      out = [] ∧ s'.loop = s.loop ∧ s'.workload parse = s.workload parse ∧
        (s'.unread < s.unread ∨ ¬ input.Ready ∧ s'.unread = s.unread) := by
  cases input with
  | connect c => cases own
  | write c bytes => cases own
  | close c ending => cases own
  | daemon input => exact .inl (runStep_lt h)
  | pollIo c schedule =>
      obtain ⟨running, conn, found, effect⟩ := pollIo_effect (valid c) h
      refine (effect.workload_lt running found).imp_right ?_
      rintro ⟨rfl, same⟩
      obtain ⟨-, conn, conn', found, rfl, read⟩ := pollIo_pending (valid c) h
      obtain ⟨fewer, none_read⟩ := unread_withStream conn' running found
      refine ⟨rfl, rfl, same, read.imp fewer ?_⟩
      rintro ⟨unready, unmoved⟩
      exact ⟨fun ready => ready unready, none_read unmoved⟩

/-! ## A stop request -/

/-- A stop request has been received or will be: it waits in the channel, or among the
bytes of a connection whose task has not returned, behind lines that are store paths.

That a decoding of the bytes contains the request is asked for every ending, because the
client may still close the connection or let it fail.  It does not matter how the lines before
it are cut into reads, and an erroneous line before it would end the task, so it is not in
the decoding then. -/
inductive StopWritten (parse : String → Except π P) (s : Sockets P K C H ε π) : Prop where
  | requested (requested : s.loop.stopProgressWriter.isSome = true)
  | queued (c : ConnId) (queued : .ok (.stop c) ∈ s.channel)
  | written (c : ConnId) (conn : Socketed ε) (connected : c ∈ s.listener ∨ c ∈ s.tasks)
      (found : s.streams c = some conn) (active : conn.rx.isDone = false)
      (decoded : ∀ ending : Ending ε, .ok .stopDaemon ∈
        (decode parse ending conn.bytes : List (Item P ε π)))

omit [DecidableEq K] in
/-- The task of another connection does not touch this one. -/
theorem StopWritten.other {d : ConnId} {listener tasks : List ConnId} {channel loop}
    (connected : c ∈ s.listener ∨ c ∈ s.tasks) (found : s.streams c = some conn)
    (active : conn.rx.isDone = false)
    (decoded : ∀ ending : Ending ε, .ok .stopDaemon ∈
      (decode parse ending conn.bytes : List (Item P ε π)))
    (different : c ≠ d) (listened : listener = s.listener)
    (kept : tasks = s.tasks ∨ tasks = s.tasks.erase d) :
    StopWritten parse
      ({ s.withStream d conn' with listener, tasks, channel, loop } : Sockets P K C H ε π) := by
  refine .written c conn ?_ ((Function.update_of_ne different _ _).trans found) active decoded
  subst listened
  refine connected.imp_right fun member => ?_
  rcases kept with rfl | rfl
  · exact member
  · exact (List.mem_erase_of_ne different).mpr member

omit [DecidableEq K] in
/-- The task of the connection reads on. -/
theorem StopWritten.poll (running : c ∈ s.tasks) (active : conn.rx.isDone = false)
    (decoded : ∀ ending : Ending ε, .ok .stopDaemon ∈
      (decode parse ending conn.bytes : List (Item P ε π)))
    (effect : PollEffect parse s c conn s' out) : StopWritten parse s' := by
  cases effect with
  | @pending conn' _ valid active' ending same =>
      refine .written c conn' (.inr running) (Function.update_self c _ _) active' ?_
      rw [same]
      exact decoded
  | done done =>
      rw [active] at done
      cases done
  | ended _ valid active' ending same spent =>
      -- a stream that has the request in it does not end before it
      rcases spent with ⟨-, nothing⟩ | nothing
      · have member := decoded (conn.ending.getD .eof)
        rw [nothing] at member
        cases member
      · have member := decoded .eof
        rw [← List.append_nil conn.bytes, nothing] at member
        cases member
  | @item conn' item _ valid done ending front =>
      have next (e : Ending ε) : .ok .stopDaemon ∈
          item :: if item.isLast then [] else decode parse e conn'.bytes := by
        have now := front e []
        rw [List.append_nil, List.append_nil] at now
        exact now ▸ decoded e
      -- an error would have been the last item, a path leaves the request where it is
      rcases item with e | (path | _)
      · have member := next .eof
        simp [Item.isLast] at member
      · refine .written c conn' (.inr running) ?_ done fun e => ?_
        · rw [Sockets.handleItem_streams]
          exact Function.update_self c _ _
        · have member := next e
          simpa [Item.isLast] using member
      · exact .queued c (List.mem_append_right _ (List.mem_singleton_self _))
  | @failure conn' e _ valid done ending ended last =>
      have member := decoded (.failure e)
      rw [last] at member
      simp at member

omit [DecidableEq K] in
/-- **A stop request stays on its way** when a task polls its receiver. -/
theorem StopWritten.polled (coming : StopWritten parse s) (running : c ∈ s.tasks)
    (found : s.streams c = some conn) (effect : PollEffect parse s c conn s' out) :
    StopWritten parse s' := by
  cases coming with
  | requested requested =>
      refine .requested ?_
      cases effect with
      | item => rwa [Sockets.handleItem_loop]
      | failure => rwa [Sockets.handleItem_loop]
      | _ => exact requested
  | queued d queued =>
      refine .queued d ?_
      cases effect with
      | item =>
          rw [Sockets.handleItem_channel]
          exact List.mem_append_left _ queued
      | failure =>
          rw [Sockets.handleItem_channel]
          exact List.mem_append_left _ queued
      | _ => exact queued
  | written d conn' connected found' active decoded =>
      by_cases same : d = c
      · subst same
        obtain rfl := Option.some.inj (found.symm.trans found')
        exact .poll running active decoded effect
      · have other {conn'' listener tasks channel loop} :=
          @StopWritten.other P K C H ε π parse s d conn' conn'' c listener tasks channel loop
            connected found' active decoded same
        cases effect with
        | pending => exact other rfl (.inl rfl)
        | done => exact other rfl (.inr rfl)
        | ended => exact other rfl (.inr rfl)
        | @item conn'' item =>
            rcases item with e | (path | _)
            · exact other rfl (.inl rfl)
            · exact other rfl (.inl rfl)
            · exact other rfl (.inr rfl)
        | failure => exact other rfl (.inl rfl)

omit [DecidableEq K] in
/-- And when `run` goes on. -/
theorem StopWritten.run (coming : StopWritten parse s)
    {t : State P K C H (ReceiveError ε π)}
    (effect : OwnEffect (s.withClients fun _ => none) t) : StopWritten parse (s.after t) := by
  cases coming with
  | requested requested => exact .requested (effect.keeps_requested requested)
  | queued c queued =>
      cases effect with
      | received channel =>
          replace channel : s.channel = _ := channel
          rw [channel] at queued
          rcases List.mem_cons.mp queued with rfl | later
          · exact .requested rfl
          · exact .queued c later
      | returned running found => cases found
      | forwarded running found => cases found
      | _ => exact .queued c queued
  | written c conn connected found active decoded =>
      cases effect with
      | @accepted d others waiting =>
          replace waiting : s.listener = _ := waiting
          refine .written c conn ?_ found active decoded
          rw [waiting, List.mem_cons] at connected
          rcases connected with (rfl | later) | running
          · exact .inr (List.mem_append_right _ (List.mem_singleton_self c))
          · exact .inl later
          · exact .inr (List.mem_append_left _ running)
      | returned running found => cases found
      | forwarded running found => cases found
      | _ => exact .written c conn connected found active decoded

/-- **A stop request stays on its way.** -/
theorem StopWritten.step (coming : StopWritten parse s) (own : input.own = true)
    (valid : ∀ c conn, s.streams c = some conn → conn.rx.Valid)
    (h : s.step parse hash input = some (s', out)) : StopWritten parse s' := by
  cases input with
  | connect c => cases own
  | write c bytes => cases own
  | close c ending => cases own
  | daemon input =>
      simp only [Sockets.step, Option.ite_none_right_eq_some, Option.map_eq_some_iff] at h
      obtain ⟨ofRun, ⟨t, outputs⟩, done, heq⟩ := h
      cases heq
      exact coming.run (step_own hash (own_of_ofRun ofRun) done)
  | pollIo c schedule =>
      obtain ⟨running, conn, found, effect⟩ := pollIo_effect (valid c) h
      exact coming.polled running found effect

omit [DecidableEq K] in
/-- The socket on which a stop request has been written can be polled.  A poll is possible unless
it would tell of the end of a stream that is still open, and the receiver does not come to the
end before it has yielded the request. -/
theorem exists_poll (running : c ∈ s.tasks) (found : s.streams c = some conn)
    (valid : conn.rx.Valid) (active : conn.rx.isDone = false)
    (decoded : ∀ ending : Ending ε, .ok .stopDaemon ∈
      (decode parse ending conn.bytes : List (Item P ε π))) :
    (s.pollIo parse c fun _ => .upTo 1).isSome = true := by
  obtain ⟨result, rx, reader, polled, -, spec⟩ :=
    @Receiver.pollNext_stream _ _ _ parse _ valid active (conn.reader fun _ => .upTo 1)
  unfold Sockets.pollIo
  rw [if_neg (not_not.mpr running), found]
  simp only [polled]
  rcases result with (_ | item) | _
  · -- the receiver owes an item
    have nothing : ∃ e : Ending ε, (decode parse e conn.bytes : List (Item P ε π)) = [] := by
      cases spec with
      | full active' same full stuck =>
          have now := stuck .eof []
          rw [List.append_nil] at now
          exact ⟨_, now⟩
      | eof active' same room ended nothing => exact ⟨_, nothing⟩
    obtain ⟨e, nothing⟩ := nothing
    have member := decoded e
    rw [nothing] at member
    cases member
  · rfl
  · rfl

/-- A daemon that has finished has written its report.  It is known of the run with messages, and
the report is among the outputs that the two runs share. -/
theorem socketReport_of_run {is : List (SocketInput P C H ε π)}
    {trace : List (SocketObs P C H ε π)}
    (hrun : (socketMachine parse hash).run Sockets.init is = some (s, trace))
    (finished : s.loop.phase = .finished) :
    ∃ writer report ok, .daemon (.finalReport writer report ok) ∈ trace := by
  obtain ⟨js, _, trace', hrun', ⟨clients, rfl, -⟩, seen⟩ :=
    (sockets_simulated hash).run related_init hrun
  obtain ⟨writer, report, ok, member⟩ := reported_of_run hrun' finished
  refine ⟨writer, report, ok, daemon_mem_of_seen ?_⟩
  rw [← seen]
  exact List.mem_filterMap.mpr ⟨_, member, rfl⟩

end Steps

end EventLoop

end CacheAction
