import CacheAction.EventLoop.StopRequests

/-!
# Pushes acknowledged before a stop

A push client writes its messages, closes its connection and exits; its store
paths have then been acknowledged.  Nothing links the connection to the stop
request of a client that connects later: each connection is read by a task of
its own, and the task of the stop client may run first.  When `run` leaves its
main loop, messages may still wait in the push client's connection or in the
channel, and they are lost.

`NotLeftBehind` says of one path that this does not happen at the moment when
the main loop is left.  Under this condition every acknowledged path is
accounted for in the final report (`acknowledged_push_accounted`).

### How one message is followed

The claim speaks of one path over one connection, so the invariant does too (`Tracked`).  A
message that has been written is in one of three places: unread in its connection, in the
channel, or received.  It moves on in this order only, and what has been received is in the
books of `run`, which are kept until the report (`Books`).  All that can go wrong is therefore
that it has not been received when receiving ends, which is when the main loop is left; this
one step is what the condition looks at.

The condition is about the state before that step.  It does not ask what becomes of the path
later, and it does not mention the stop client: a push that is still under way when the
acknowledgement of another one is followed by a stop is not concerned.
-/

namespace CacheAction

namespace EventLoop

variable {P K C H R : Type} [DecidableEq K] (hash : P → K)

/-- The connection `c` was closed by its client before another client connected
whose stop request has been received. -/
def AcknowledgedBeforeStop (trace : List (Obs P C H R)) (c : ConnId) : Prop :=
  ∃ d t₀ t₁ t₂, trace = t₀ ++ .clientClosed c :: (t₁ ++ .connected d :: t₂) ∧
    .received (.stop d) ∈ t₂

/-- The path is accounted for in the report: there is an entry among its closure
errors, or every hash of its closure has been handled and recorded. -/
structure Accounted (led : Ledger P C H) (report : ActionReport P C H) (path : P) : Prop where
  complete : report = reportOf led.closureErrors led.handled
  resolved : (∃ e, (path, e) ∈ report.pathClosureErrors) ∨
    ∃ paths, (path, paths) ∈ led.closures ∧
      ∀ q ∈ paths, ∃ entry ∈ led.handled, hash entry.1 = hash q

/-- A final report accounts for the path if it was pushed over `c` and
acknowledged before the stop. -/
def AccountsAcknowledged (c : ConnId) (path : P) (pre : List (Obs P C H R))
    (o : Obs P C H R) : Prop :=
  ∀ writer report ok, o = .finalReport writer report ok → AcknowledgedBeforeStop pre c →
    .sent c (.ok (.pushStorePath path)) ∈ pre → Accounted hash (ledger pre) report path

/-- When the main loop is left, no push of `path` waits unread in the connection
`c`, if its client has closed it, nor in the channel. -/
def NotLeftBehind (c : ConnId) (path : P) (s : State P K C H R) (i : Input P C H R) : Prop :=
  ∀ ok, i = .leaveLoop ok → ∀ conn, s.net.clients c = some conn → conn.closed = true →
    .ok (.pushStorePath path) ∉ conn.inbox ∧ .ok (.pushStorePath path) ∉ s.net.channel

/-! ## Where a message is -/

section Network

variable {i : Input P C H R} {net net' : Net P R} {out : List (Obs P C H R)} {c : ConnId}

omit [DecidableEq K]

/-- A connection closed by its client stays so. -/
theorem NetEffect.closed (effect : NetEffect i net net' out)
    (closed : ∃ conn, net.clients c = some conn ∧ conn.closed = true) :
    ∃ conn, net'.clients c = some conn ∧ conn.closed = true := by
  obtain ⟨conn, found, closed⟩ := closed
  cases effect with
  | internal clients channel silent => exact ⟨conn, by rw [clients, found], closed⟩
  | connected c' fresh clients channel outputs =>
      have other : c ≠ c' := by
        rintro rfl
        simp [fresh] at found
      exact ⟨conn, by rw [clients, Function.update_of_ne other, found], closed⟩
  | sent c' conn' item found' opened clients channel outputs =>
      have other : c ≠ c' := by
        rintro rfl
        obtain rfl := Option.some.inj (found'.symm.trans found)
        simp [opened] at closed
      exact ⟨conn, by rw [clients, Function.update_of_ne other, found], closed⟩
  | clientClosed c' conn' found' clients channel outputs =>
      rw [clients]
      by_cases same : c = c'
      · subst same
        exact ⟨_, Function.update_self _ _ _, rfl⟩
      · exact ⟨conn, by rw [Function.update_of_ne same, found], closed⟩
  | forwarded c' conn' item rest done found' next clients channel outputs =>
      rw [clients]
      by_cases same : c = c'
      · subst same
        obtain rfl := Option.some.inj (found'.symm.trans found)
        exact ⟨_, Function.update_self _ _ _, closed⟩
      · exact ⟨conn, by rw [Function.update_of_ne same, found], closed⟩
  | received message rest input channel net_eq outputs silent =>
      exact ⟨conn, by rw [net_eq, found], closed⟩

/-- The push of `path` waits in the connection `c` or in the channel. -/
def Waiting (net : Net P R) (c : ConnId) (path : P) : Prop :=
  .ok (.pushStorePath path) ∈ net.channel ∨
    ∃ conn, net.clients c = some conn ∧ .ok (.pushStorePath path) ∈ conn.inbox

/-- Nothing that waits is lost when one connection only gains messages. -/
theorem Waiting.update {c' : ConnId} {conn' : Connection P R} {path : P}
    (waiting : Waiting net c path)
    (clients : net'.clients = Function.update net.clients c' (some conn'))
    (channel : net'.channel = net.channel)
    (keeps : ∀ conn, net.clients c' = some conn → ∀ m ∈ conn.inbox, m ∈ conn'.inbox) :
    Waiting net' c path := by
  unfold Waiting
  rw [clients, channel]
  rcases waiting with queued | ⟨conn, found, unread⟩
  · exact Or.inl queued
  · by_cases same : c = c'
    · subst same
      exact Or.inr ⟨conn', Function.update_self _ _ _, keeps conn found _ unread⟩
    · exact Or.inr ⟨conn, by rw [Function.update_of_ne same, found], unread⟩

/-- A waiting push goes on waiting until it is received. -/
theorem NetEffect.waiting (effect : NetEffect i net net' out) {path : P}
    (waiting : Waiting net c path) :
    Waiting net' c path ∨ .received (.pushStorePath path) ∈ out := by
  cases effect with
  | internal clients channel silent =>
      refine Or.inl ?_
      unfold Waiting
      rw [clients, channel]
      exact waiting
  | connected c' fresh clients channel outputs =>
      refine Or.inl (waiting.update clients channel ?_)
      intro conn found
      simp [fresh] at found
  | sent c' conn' item found' opened clients channel outputs =>
      refine Or.inl (waiting.update clients channel ?_)
      intro conn found m member
      obtain rfl := Option.some.inj (found'.symm.trans found)
      exact List.mem_append_left _ member
  | clientClosed c' conn' found' clients channel outputs =>
      refine Or.inl (waiting.update clients channel ?_)
      intro conn found m member
      obtain rfl := Option.some.inj (found'.symm.trans found)
      exact member
  | forwarded c' conn' item rest done found' next clients channel outputs =>
      refine Or.inl ?_
      unfold Waiting
      rw [clients, channel]
      rcases waiting with queued | ⟨conn, found, unread⟩
      · exact Or.inl (List.mem_append_left _ queued)
      · by_cases same : c = c'
        · subst same
          obtain rfl := Option.some.inj (found'.symm.trans found)
          rw [next] at unread
          -- either this push is the item forwarded, or it is behind it
          rcases List.mem_cons.mp unread with rfl | later
          · exact Or.inl (List.mem_append_right _ (List.mem_singleton.mpr rfl))
          · exact Or.inr ⟨_, Function.update_self _ _ _, later⟩
        · exact Or.inr ⟨conn, by rw [Function.update_of_ne same, found], unread⟩
  | received message rest input channel net_eq outputs silent =>
      rcases waiting with queued | unread
      · rw [channel] at queued
        rcases List.mem_cons.mp queued with now | later
        · exact Or.inr ((outputs _).mpr now.symm)
        · exact Or.inl (Or.inl (by rw [net_eq]; exact later))
      · exact Or.inl (Or.inr (by rw [net_eq]; exact unread))

/-- A message is written to a connection that its client has not closed. -/
theorem NetEffect.of_sent (effect : NetEffect i net net' out) {item : Except R (Message P)}
    (member : .sent c item ∈ out) :
    ∃ conn, net.clients c = some conn ∧ conn.closed = false ∧
      net'.clients c = some { conn with inbox := conn.inbox ++ [item] } := by
  cases effect with
  | internal clients channel silent => exact absurd (silent _ member) (by simp [Obs.external])
  | connected c' fresh clients channel outputs => simp [outputs] at member
  | clientClosed c' conn found clients channel outputs => simp [outputs] at member
  | forwarded c' conn item rest done found next clients channel outputs =>
      simp [outputs] at member
  | received message rest input channel net_eq outputs silent =>
      exact absurd (silent _ member (by simp)) (by simp [Obs.external])
  | sent c' conn item' found opened clients channel outputs =>
      obtain ⟨rfl, rfl⟩ : c = c' ∧ item = item' := by simpa [outputs] using member
      refine ⟨conn, found, opened, ?_⟩
      rw [clients]
      exact Function.update_self _ _ _

theorem NetEffect.waiting_of_sent (effect : NetEffect i net net' out) {path : P}
    (member : .sent c (.ok (.pushStorePath path)) ∈ out) : Waiting net' c path := by
  obtain ⟨conn, -, -, now⟩ := effect.of_sent member
  exact Or.inr ⟨_, now, List.mem_append_right _ (List.mem_singleton.mpr rfl)⟩

/-- A client that has closed its end sends nothing any more. -/
theorem NetEffect.not_sent (effect : NetEffect i net net' out) {item : Except R (Message P)}
    (closed : ∃ conn, net.clients c = some conn ∧ conn.closed = true) :
    .sent c item ∉ out := by
  intro member
  obtain ⟨conn, found, closed⟩ := closed
  obtain ⟨conn', found', opened, -⟩ := effect.of_sent member
  obtain rfl := Option.some.inj (found'.symm.trans found)
  simp [opened] at closed

/-- What a client is seen to do, it has done. -/
theorem NetEffect.closed_of_clientClosed (effect : NetEffect i net net' out)
    (member : .clientClosed c ∈ out) :
    ∃ conn, net'.clients c = some conn ∧ conn.closed = true := by
  cases effect with
  | internal clients channel silent => exact absurd (silent _ member) (by simp [Obs.external])
  | connected c' fresh clients channel outputs => simp [outputs] at member
  | sent c' conn item found opened clients channel outputs => simp [outputs] at member
  | forwarded c' conn item rest done found next clients channel outputs =>
      simp [outputs] at member
  | received message rest input channel net_eq outputs silent =>
      exact absurd (silent _ member (by simp)) (by simp [Obs.external])
  | clientClosed c' conn found clients channel outputs =>
      obtain rfl : c = c' := by simpa [outputs] using member
      rw [clients]
      exact ⟨_, Function.update_self _ _ _, rfl⟩

end Network

/-! ## What is known about one push along a run -/

/-- A stop request has been received after the client of `c` closed it. -/
def StopAfterClose (trace : List (Obs P C H R)) (c : ConnId) : Prop :=
  ∃ d before after, trace = before ++ .clientClosed c :: after ∧ .received (.stop d) ∈ after

section Traces

variable {trace out : List (Obs P C H R)} {c : ConnId}

omit [DecidableEq K]

theorem AcknowledgedBeforeStop.stopAfterClose (acked : AcknowledgedBeforeStop trace c) :
    StopAfterClose trace c := by
  obtain ⟨d, t₀, t₁, t₂, rfl, member⟩ := acked
  exact ⟨d, t₀, _, rfl, List.mem_append_right _ (List.mem_cons_of_mem _ member)⟩

theorem StopAfterClose.clientClosed (after : StopAfterClose trace c) :
    .clientClosed c ∈ trace := by
  obtain ⟨d, t₀, t₁, rfl, -⟩ := after
  exact List.mem_append_right _ List.mem_cons_self

/-- Outputs that receive nothing do not make a stop request come after. -/
theorem StopAfterClose.of_append (after : StopAfterClose (trace ++ out) c)
    (quiet : ∀ event, .received event ∉ out) : StopAfterClose trace c := by
  obtain ⟨d, t₀, t₁, split, member⟩ := after
  rcases List.append_eq_append_iff.mp split with ⟨mid, -, rest⟩ | ⟨mid, rfl, rest⟩
  · -- the client would have closed within `out`, and the request come later
    exact absurd (by simp [rest, member]) (quiet (.stop d))
  · rcases mid with _ | ⟨o, mid⟩
    · have now : out = .clientClosed c :: t₁ := rest.symm
      exact absurd (by simp [now, member]) (quiet (.stop d))
    · obtain ⟨rfl, rfl⟩ := List.cons.inj rest
      rcases List.mem_append.mp member with earlier | now
      · exact ⟨d, t₀, mid, rfl, earlier⟩
      · exact absurd now (quiet (.stop d))

end Traces

section Steps

variable {hash} {s s' : State P K C H R} {i : Input P C H R} {trace out : List (Obs P C H R)}
  {c : ConnId} {path : P}

/-- The main loop is left by `leaveLoop` only, which changes nothing else. -/
theorem phase_of_step (h : step hash s i = some (s', out)) (main : s.loop.phase = .mainLoop) :
    s'.loop.phase = .mainLoop ∨ (∃ ok, i = .leaveLoop ok) ∧ s'.net = s.net := by
  cases step_turn hash h with
  | connect | send | close | handleIo | accept | closureFailed => exact Or.inl main
  | @recv message rest selecting channel =>
      rcases message with e | (path | writer) <;> exact Or.inl main
  | closureComputed selecting found =>
      rw [(schedulePaths_eq hash _ _).1]
      exact Or.inl main
  | @pathDone i path result selecting found =>
      rw [(completePath_eq s.loop i path result).1]
      exact Or.inl main
  | @leaveLoop ok _ _ => exact Or.inr ⟨⟨ok, rfl⟩, rfl⟩
  | drainDone draining found => exact absurd (main.symm.trans draining) (by simp)
  | finish draining idle requested => exact absurd (main.symm.trans draining) (by simp)

/-- Nothing is received after the main loop. -/
theorem main_of_received (h : step hash s i = some (s', out)) {event : Event P}
    (member : .received event ∈ out) : s.loop.phase = .mainLoop := by
  obtain ⟨rfl, -⟩ := (step_netEffect hash h).of_received member
  cases step_turn hash h with
  | recv selecting channel => exact main_of_selecting selecting

/-- What is known about the push of `path` over the connection `c`.  `onLeaving` is where the
condition is used: it is established in the step that leaves the main loop, and kept from
there on because nothing is received any more. -/
structure Tracked (hash : P → K) (c : ConnId) (path : P) (trace : List (Obs P C H R))
    (s : State P K C H R) : Prop where
  books : Books hash (ledger trace) s.loop
  closed : .clientClosed c ∈ trace → ∃ conn, s.net.clients c = some conn ∧ conn.closed = true
  located : .sent c (.ok (.pushStorePath path)) ∈ trace →
    Waiting s.net c path ∨ .received (.pushStorePath path) ∈ trace
  onLeaving : s.loop.phase ≠ .mainLoop → StopAfterClose trace c →
    .sent c (.ok (.pushStorePath path)) ∈ trace → .received (.pushStorePath path) ∈ trace

/-- **Every step keeps track of the push.**  The step that leaves the main loop is the only one
that needs the condition: there the path must not be waiting any more. -/
theorem Tracked.step (tracked : Tracked hash c path trace s) (condition : NotLeftBehind c path s i)
    (h : step hash s i = some (s', out)) : Tracked hash c path (trace ++ out) s' := by
  have effect := step_netEffect hash h
  have closed : .clientClosed c ∈ trace ++ out →
      ∃ conn, s'.net.clients c = some conn ∧ conn.closed = true := by
    intro member
    rcases List.mem_append.mp member with earlier | now
    · exact effect.closed (tracked.closed earlier)
    · exact effect.closed_of_clientClosed now
  have located : .sent c (.ok (.pushStorePath path)) ∈ trace ++ out →
      Waiting s'.net c path ∨ .received (.pushStorePath path) ∈ trace ++ out := by
    intro member
    rcases List.mem_append.mp member with earlier | now
    · rcases tracked.located earlier with waiting | received
      · exact (effect.waiting waiting).imp_right (List.mem_append_right _)
      · exact Or.inr (List.mem_append_left _ received)
    · exact Or.inl (effect.waiting_of_sent now)
  refine ⟨tracked.books.effect (step_effect hash h), closed, located, ?_⟩
  intro done acked member
  by_cases main : s.loop.phase = .mainLoop
  · -- the main loop is being left: nothing waits any more
    obtain ⟨⟨ok, input⟩, same⟩ := (phase_of_step h main).resolve_left done
    obtain ⟨conn, found, isClosed⟩ := closed acked.clientClosed
    rw [same] at found
    obtain ⟨read, dequeued⟩ := condition ok input conn found isClosed
    refine (located member).resolve_left ?_
    rw [same]
    rintro (queued | ⟨conn', found', unread⟩)
    · exact dequeued queued
    · obtain rfl := Option.some.inj (found'.symm.trans found)
      exact read unread
  · have quiet : ∀ event, .received event ∉ out :=
      fun event member => main (main_of_received h member)
    have before := acked.of_append quiet
    refine List.mem_append_left _ (tracked.onLeaving main before ?_)
    rcases List.mem_append.mp member with earlier | now
    · exact earlier
    · exact absurd now (effect.not_sent (tracked.closed before.clientClosed))

/-- With nothing left in the loop, every path received is accounted for. -/
theorem Books.accounted {led : Ledger P C H} {loop : Loop P K C H} (books : Books hash led loop)
    (noClosure : loop.storeClosures = []) (idle : loop.handleStorePaths = [])
    (received : path ∈ led.pushes) : Accounted hash led loop.report path := by
  have settled := books.settled noClosure idle
  refine ⟨books.report, ?_⟩
  rcases List.mem_append.mp (settled.pushes.mem_iff.mp received) with failed | computed
  · obtain ⟨⟨p, e⟩, entry, rfl⟩ := List.mem_map.mp failed
    rw [books.report, (reportOf_errors _ _).1]
    exact Or.inl ⟨e, entry⟩
  · obtain ⟨⟨p, paths⟩, closure, rfl⟩ := List.mem_map.mp computed
    refine Or.inr ⟨paths, closure, fun q member => ?_⟩
    have seen : hash q ∈ (led.firstSeen.map hash).toFinset := by
      rw [← books.seen, books.covered]
      exact List.mem_toFinset.mpr
        (List.mem_map_of_mem (List.mem_flatMap.mpr ⟨_, closure, member⟩))
    obtain ⟨first, scheduled, same⟩ := List.mem_map.mp (List.mem_toFinset.mp seen)
    obtain ⟨entry, handled, rfl⟩ := List.mem_map.mp (settled.paths.mem_iff.mp scheduled)
    exact ⟨entry, handled, same⟩

end Steps

/-- **No acknowledged push is lost** in a run in which the path is not left behind
when the main loop is left: whenever the final report is written, the path is
accounted for.

The invariant (`Tracked`) follows the path from its client's stream, through the task that
reads it and the channel, to the pushes of the event loop.  The one step that drops what it
has not reached is the one in which the main loop is left, and that is what the condition is
about; from there on the account of all pushes is the one of `Books`. -/
theorem acknowledged_push_accounted (c : ConnId) (path : P) {is : List (Input P C H R)}
    {s : State P K C H R} {trace : List (Obs P C H R)}
    (hrun : (machine hash).run init is = some (s, trace))
    (meets : (machine hash).Meets (NotLeftBehind c path) init is) :
    Guarded (AccountsAcknowledged hash c path) trace := by
  have start : Tracked hash c path ([] : List (Obs P C H R)) (init : State P K C H R) :=
    ⟨Books.initial, by simp, by simp, by simp [init]⟩
  refine (machine hash).run_guarded (I := fun s trace => Tracked hash c path trace s)
    (fun _ _ _ _ _ tracked condition hstep => tracked.step condition hstep) ?_ meets start hrun
  rintro s trace i s' out tracked - hstep pre o post split writer report ok rfl acked sent
  have stepped : step hash s i = some (s', out) := hstep
  have member : .finalReport writer report ok ∈ out := by simp [split]
  cases (step_effect hash stepped).stopEffect with
  | unrelated same going silent =>
      exact absurd (silent _ member) (by simp [Obs.concernsStop])
  | request w selecting state outputs => simp [outputs] at member
  | finish w ok' draining idle requested state outputs =>
      rw [outputs] at split
      obtain ⟨rfl, rfl⟩ : pre = [] ∧ report = s.loop.report := by
        rcases pre with _ | ⟨first, _ | ⟨second, rest⟩⟩
        · obtain ⟨heq, -⟩ := List.cons.inj split
          cases heq
          exact ⟨rfl, rfl⟩
        · simp at split
        · simp at split
      rw [List.append_nil] at acked sent ⊢
      have received := tracked.onLeaving (by simp [draining]) acked.stopAfterClose sent
      refine tracked.books.accounted (tracked.books.stopping (by simp [draining])).1 idle ?_
      exact List.mem_filterMap.mpr ⟨_, received, rfl⟩

/-- Up to here the pushed path has been received before the stop request. -/
def receivedFirst : List (Input ℕ Unit Unit Unit) :=
  [.connect 0, .send 0 (.ok (.pushStorePath 7)), .close 0, .connect 1,
    .send 1 (.ok .stopDaemon), .accept, .accept, .handleIo 0, .recv, .handleIo 1, .recv,
    .closureDone 0 (.ok [7])]

/-- A run in which the push has been received before the stop is: the client closes its end, the
main loop is left, and the path is handled in the drain. -/
theorem acknowledged_push_accounted_received_first :
    ∃ (s : State ℕ ℕ Unit Unit Unit) (trace : List (Obs ℕ Unit Unit Unit)),
      (machine id).run init
          (receivedFirst ++ [.leaveLoop true, .drainDone 0 (.ok none) true, .finish true]) =
            some (s, trace) ∧
        Guarded (AccountsAcknowledged id 0 7) trace := by
  have hrun : (machine id).run init
      (receivedFirst ++ [.leaveLoop true, .drainDone 0 (.ok none) true, .finish true]) =
        some (_, _) := rfl
  have hfirst : (machine id).run init receivedFirst = some (_, _) := rfl
  refine ⟨_, _, hrun, acknowledged_push_accounted id 0 7 hrun ?_⟩
  refine (machine id).meets_append hfirst ?_ ?_
  · refine (machine id).meets_of_forall ?_ init
    simp [receivedFirst, NotLeftBehind]
  · constructor
    · rintro ok - conn found -
      cases found
      exact ⟨by simp, by simp⟩
    · rintro p -
      exact (machine id).meets_of_forall (by simp [NotLeftBehind]) p.1

/-- The push client has closed its connection, but the task of the stop client
runs first. -/
def overtakenRun : List (Input ℕ Unit Unit Unit) :=
  [.connect 0, .send 0 (.ok (.pushStorePath 7)), .close 0, .connect 1,
    .send 1 (.ok .stopDaemon), .accept, .accept, .handleIo 1, .recv, .leaveLoop true,
    .finish true]

def overtakenTrace : List (Obs ℕ Unit Unit Unit) :=
  [.connected 0, .sent 0 (.ok (.pushStorePath 7)), .clientClosed 0, .connected 1,
    .sent 1 (.ok .stopDaemon), .received (.stop 1), .pathsLeftToHandle 0 true,
    .finalReport 1 ActionReport.default true, .writerClosed 1]

/-- The acknowledged path is in no closure and in no error of the report. -/
theorem acknowledged_push_lost :
    ∃ s : State ℕ ℕ Unit Unit Unit,
      (machine id).run init overtakenRun = some (s, overtakenTrace) ∧
        ¬ Guarded (AccountsAcknowledged id 0 7) overtakenTrace := by
  refine ⟨_, rfl, fun guarded => ?_⟩
  have acked : AcknowledgedBeforeStop (overtakenTrace.take 7) 0 :=
    ⟨1, overtakenTrace.take 2, [], (overtakenTrace.take 7).drop 4, rfl,
      by simp [overtakenTrace]⟩
  have accounted := guarded (overtakenTrace.take 7) _ (overtakenTrace.drop 8) rfl
    1 ActionReport.default true rfl acked (by simp [overtakenTrace])
  rcases accounted.resolved with ⟨e, member⟩ | ⟨paths, member, -⟩
  · simp [ActionReport.default] at member
  · simp [ledger, overtakenTrace] at member

end EventLoop

end CacheAction
