import CacheAction.EventLoop.Conservation
import CacheAction.EventLoop.SocketSimulation

/-!
# What the daemon makes of the bytes that the clients write

Each connection has a `history`: the bytes written by its client, how its stream
has ended, the items its receiver has yielded and whether its `handle_io` task has
returned.  In every run, whatever the sizes of the pieces and the order of the
tasks:

* the items are the first ones of the decoding of the bytes, and all of them once
  the task has returned (`Delivers.inOrder`, `Delivers.complete`);
* what `run` has taken from the channel and what still waits in it are these items,
  in the order in which they were yielded (`Delivers.forwarded`).

`Progress` is the invariant of one connection: while its receiver is not done, what
it has yielded and what it still has before it make up the decoding of the bytes,
for all continuations of the stream.

### Why all continuations

A client that has written half a line may finish it, leave it or be cut off, and each of
these gives another decoding.  An invariant about the bytes written so far alone would be
lost with the next write: the decoding of a longer stream is not a function of the decoding
of the shorter one.  For all continuations and all endings at once it is kept by a write
trivially (`Progress.wrote`), and a poll, which knows nothing of what will follow, can only do
what is right for all of them.  The present stream is then the case of the empty continuation
(`Progress.now`).

After its last item a receiver does not look at the stream any more.  What is kept then is
that nothing could come of it (`Spent`), which has two reasons: a stop, an error or an
overlong line has been decoded, whatever follows; or the client has closed its end.
-/

namespace CacheAction

namespace EventLoop

variable {P K C H ε π : Type}

/-! ## Histories -/

/-- What a trace tells of a connection: the bytes that its client has written, how it has
closed its end, the items that its receiver has yielded, and whether its task has returned. -/
@[ext] structure History (P ε π : Type) where
  written : List UInt8
  closing : Option (Ending ε)
  items : List (Item P ε π)
  returned : Bool

/-- The connection that an output is about. -/
def SocketObs.client : SocketObs P C H ε π → Option ConnId
  | .connected c => some c
  | .wrote c _ => some c
  | .closed c _ => some c
  | .yielded c _ => some c
  | .ioReturned c => some c
  | .daemon _ => none

namespace History

/-- Nothing has happened. -/
def new : History P ε π :=
  { written := [], closing := none, items := [], returned := false }

/-- One output more about the connection. -/
def note (h : History P ε π) : SocketObs P C H ε π → History P ε π
  | .connected _ => h
  | .wrote _ bytes => { h with written := h.written ++ bytes }
  | .closed _ ending => { h with closing := some ending }
  | .yielded _ item => { h with items := h.items ++ [item] }
  | .ioReturned _ => { h with returned := true }
  | .daemon _ => h

/-- How the stream ends, if it goes on as it is. -/
def ending (h : History P ε π) : Ending ε :=
  h.closing.getD .eof

end History

/-- The history of connection `c`. -/
def history (c : ConnId) (trace : List (SocketObs P C H ε π)) : History P ε π :=
  (trace.filter fun o => o.client = some c).foldl .note .new

/-- The items yielded on all the connections, in order. -/
def yielded (trace : List (SocketObs P C H ε π)) : List (ConnId × Item P ε π) :=
  trace.filterMap fun
    | .yielded c item => some (c, item)
    | _ => none

/-- The message that an output of `run` has taken from the channel. -/
def Obs.taken {R : Type} : Obs P C H R → Option (Except R (Event P))
  | .received event => some (.ok event)
  | .rxError e => some (.error e)
  | _ => none

/-- What `run` has taken from the channel, in order. -/
def taken (trace : List (SocketObs P C H ε π)) : List (Except (ReceiveError ε π) (Event P)) :=
  trace.filterMap fun
    | .daemon o => o.taken
    | _ => none

/-- The bytes of each connection are decoded once and in order, and what comes of them
goes through the channel to `run`. -/
structure Delivers (parse : String → Except π P) (s : Sockets P K C H ε π)
    (trace : List (SocketObs P C H ε π)) : Prop where
  inOrder : ∀ c, (history c trace).items <+:
    decode parse (history c trace).ending (history c trace).written
  complete : ∀ c, (history c trace).returned = true →
    (history c trace).items = decode parse (history c trace).ending (history c trace).written
  forwarded : taken trace ++ s.channel = (yielded trace).map fun entry => forward entry.1 entry.2

section Histories

variable {c d : ConnId} {trace out : List (SocketObs P C H ε π)}

theorem history_append (c : ConnId) (trace out : List (SocketObs P C H ε π)) :
    history c (trace ++ out) =
      (out.filter fun o => o.client = some c).foldl .note (history c trace) := by
  rw [history, List.filter_append, List.foldl_append]
  rfl

/-- Outputs about other connections change nothing. -/
theorem history_append_of_other (other : ∀ o ∈ out, o.client ≠ some c) :
    history c (trace ++ out) = history c trace := by
  have none_left : (out.filter fun o => o.client = some c) = [] :=
    List.filter_eq_nil_iff.mpr fun o member => by simpa using other o member
  rw [history_append, none_left]
  rfl

/-- Outputs about this connection are noted. -/
theorem history_append_of_own (own : ∀ o ∈ out, o.client = some c) :
    history c (trace ++ out) = out.foldl .note (history c trace) := by
  rw [history_append, List.filter_eq_self.mpr fun o member => by simpa using own o member]

theorem history_daemon (outputs : List (Obs P C H (ReceiveError ε π))) :
    history c (trace ++ outputs.map .daemon) = history c trace := by
  refine history_append_of_other fun o member => ?_
  obtain ⟨_, _, rfl⟩ := List.mem_map.mp member
  rintro ⟨⟩

theorem yielded_append : yielded (trace ++ out) = yielded trace ++ yielded out :=
  List.filterMap_append

/-- The items of a history are those yielded on its connection. -/
theorem history_items (c : ConnId) (trace : List (SocketObs P C H ε π)) :
    (history c trace).items =
      (yielded trace).filterMap fun entry => if entry.1 = c then some entry.2 else none := by
  induction trace using List.reverseRecOn with
  | nil => rfl
  | append_singleton rest o ih =>
      rw [yielded_append, List.filterMap_append, ← ih]
      by_cases own : o.client = some c
      · rw [history_append_of_own (by simpa using own)]
        cases o <;> simp_all [History.note, yielded, SocketObs.client]
      · rw [history_append_of_other (by simpa using own)]
        cases o <;> simp_all [yielded, SocketObs.client]

theorem taken_append : taken (trace ++ out) = taken trace ++ taken out :=
  List.filterMap_append

end Histories

/-! ## One connection -/

section Connection

variable (parse : String → Except π P)

/-- The items are all there will ever be, whatever follows or because nothing can follow. -/
def History.Spent (h : History P ε π) : Prop :=
  (∀ (e : Ending ε) more, decode parse e (h.written ++ more) = h.items) ∨
    ∃ e, h.closing = some e ∧ decode parse e h.written = h.items

/-- How far the task of a connection has come. -/
structure Progress (conn : Socketed ε) (h : History P ε π) : Prop where
  valid : conn.rx.Valid
  closing : h.closing = conn.ending
  ahead : conn.rx.isDone = false → ∀ (e : Ending ε) more,
    decode parse e (h.written ++ more) = h.items ++ decode parse e (conn.bytes ++ more)
  spent : conn.rx.isDone = true ∨ h.returned = true → h.Spent parse

variable {parse} {conn conn' : Socketed ε} {h : History P ε π}

/-- So they are the decoding of what has been written. -/
theorem History.Spent.eq (spent : h.Spent parse) : h.items = decode parse h.ending h.written := by
  rcases spent with always | ⟨e, closing, now⟩
  · have whole := always h.ending []
    rw [List.append_nil] at whole
    exact whole.symm
  · rw [History.ending, closing]
    exact now.symm

/-- A client that has not closed its end may write on. -/
theorem History.Spent.open (spent : h.Spent parse) (opened : h.closing = none) (e : Ending ε)
    (more : List UInt8) : decode parse e (h.written ++ more) = h.items := by
  rcases spent with always | ⟨e', closing, -⟩
  · exact always e more
  · rw [opened] at closing
    cases closing

theorem Progress.now (progress : Progress parse conn h) (active : conn.rx.isDone = false)
    (e : Ending ε) : decode parse e h.written = h.items ++ decode parse e conn.bytes := by
  have whole := progress.ahead active e []
  rwa [List.append_nil, List.append_nil] at whole

/-- The items are always the first ones of the decoding. -/
theorem Progress.inOrder (progress : Progress parse conn h) :
    h.items <+: decode parse h.ending h.written := by
  cases done : conn.rx.isDone with
  | false =>
      rw [progress.now done]
      exact List.prefix_append _ _
  | true =>
      rw [← (progress.spent (.inl done)).eq]

/-- Nothing has been written, and nothing is before the receiver. -/
theorem progress_new :
    Progress parse ({ unread := [], ending := none, rx := .new } : Socketed ε) .new where
  valid := Receiver.valid_new
  closing := rfl
  ahead _ _ _ := rfl
  spent := by rintro (⟨⟨⟩⟩ | ⟨⟨⟩⟩)

/-- The client writes: what is written is put behind what the receiver has before it. -/
theorem Progress.wrote (progress : Progress parse conn h) (opened : conn.ending = none)
    (bytes : List UInt8) :
    Progress parse { conn with unread := conn.unread ++ bytes }
      { h with written := h.written ++ bytes } where
  valid := progress.valid
  closing := progress.closing
  ahead active e more := by
    rw [List.append_assoc, progress.ahead active, Socketed.bytes, Socketed.bytes]
    simp only [List.append_assoc]
  spent ended := by
    refine .inl fun e more => ?_
    rw [List.append_assoc]
    exact (progress.spent ended).open (progress.closing.trans opened) e (bytes ++ more)

/-- The client closes its end: no decoding changes, since it is known for every ending. -/
theorem Progress.closed (progress : Progress parse conn h) (opened : conn.ending = none)
    (ending : Ending ε) :
    Progress parse { conn with ending := some ending } { h with closing := some ending } where
  valid := progress.valid
  closing := rfl
  ahead := progress.ahead
  spent ended := .inl fun e more =>
    (progress.spent ended).open (progress.closing.trans opened) e more

/-- A poll that takes nothing off the front of the stream. -/
theorem Progress.pending (progress : Progress parse conn h) (active : conn.rx.isDone = false)
    (valid : conn'.rx.Valid) (active' : conn'.rx.isDone = false)
    (ending : conn'.ending = conn.ending) (same : conn'.bytes = conn.bytes) :
    Progress parse conn' h where
  valid := valid
  closing := progress.closing.trans ending.symm
  ahead _ := by
    rw [same]
    exact progress.ahead active
  spent ended := by
    rw [active', ← active] at ended
    exact progress.spent ended

/-- The task returns when there can be no more items. -/
theorem Progress.returned (progress : Progress parse conn h) (spent : h.Spent parse) :
    Progress parse conn { h with returned := true } where
  valid := progress.valid
  closing := progress.closing
  ahead := progress.ahead
  spent _ := spent

/-- A poll that finds the end of the stream. -/
theorem Progress.spent_of_ended (progress : Progress parse conn h)
    (active : conn.rx.isDone = false)
    (spent : (conn.ending.isSome = true ∧
        decode parse (conn.ending.getD .eof) conn.bytes = ([] : List (Item P ε π))) ∨
      ∀ (e : Ending ε) more, (decode parse e (conn.bytes ++ more) : List (Item P ε π)) = []) :
    h.Spent parse := by
  rcases spent with ⟨closed, nothing⟩ | stuck
  · obtain ⟨e, ending⟩ := Option.isSome_iff_exists.mp closed
    rw [ending, Option.getD_some] at nothing
    refine .inr ⟨e, progress.closing.trans ending, ?_⟩
    rw [progress.now active, nothing, List.append_nil]
  · refine .inl fun e more => ?_
    rw [progress.ahead active, stuck, List.append_nil]

/-- A poll that takes an item off the front of the stream. -/
theorem Progress.item {item : Item P ε π} (progress : Progress parse conn h)
    (active : conn.rx.isDone = false) (valid : conn'.rx.Valid)
    (done : conn'.rx.isDone = item.isLast) (ending : conn'.ending = conn.ending)
    (front : ∀ (e : Ending ε) more, decode parse e (conn.bytes ++ more) =
      item :: if item.isLast then [] else decode parse e (conn'.bytes ++ more)) :
    Progress parse conn' { h with items := h.items ++ [item] } where
  valid := valid
  closing := progress.closing.trans ending.symm
  ahead active' e more := by
    rw [progress.ahead active, front, if_neg (by simp [← done, active']), List.append_assoc]
    rfl
  spent ended := by
    -- a task that has returned has no item left
    have last : item.isLast = true := by
      rcases ended with now | returned
      · rw [← done, now]
      · have whole := (progress.spent (.inr returned)).eq
        have front' := front h.ending []
        rw [List.append_nil] at front'
        rw [progress.now active, front', List.self_eq_append_right] at whole
        cases whole
    refine .inl fun e more => ?_
    rw [progress.ahead active, front, if_pos last]

/-- A poll that meets an error of the reader. -/
theorem Progress.failure {e : ε} (progress : Progress parse conn h)
    (active : conn.rx.isDone = false) (valid : conn'.rx.Valid) (done : conn'.rx.isDone = true)
    (ending : conn'.ending = conn.ending) (ended : conn.ending = some (.failure e))
    (last : decode parse (.failure e) conn.bytes =
      ([.error (.io (.reader e))] : List (Item P ε π))) :
    Progress parse conn' { h with items := h.items ++ [.error (.io (.reader e))] } where
  valid := valid
  closing := progress.closing.trans ending.symm
  ahead active' := absurd (active'.symm.trans done) Bool.false_ne_true
  spent _ := by
    refine .inr ⟨.failure e, progress.closing.trans ended, ?_⟩
    rw [progress.now active, last]

end Connection

/-! ## All connections -/

/-- Every connection has come as far as its history says, and the channel has what has
been yielded and not taken. -/
structure Delivery (parse : String → Except π P) (s : Sockets P K C H ε π)
    (trace : List (SocketObs P C H ε π)) : Prop where
  absent : ∀ c, s.streams c = none → history c trace = .new
  present : ∀ c conn, s.streams c = some conn → Progress parse conn (history c trace)
  forwarded : taken trace ++ s.channel = (yielded trace).map fun entry => forward entry.1 entry.2

/-- What is known of each stream is what is claimed of its history. -/
theorem Delivery.delivers {parse : String → Except π P} {s : Sockets P K C H ε π}
    {trace : List (SocketObs P C H ε π)} (delivery : Delivery parse s trace) :
    Delivers parse s trace where
  inOrder c := by
    cases found : s.streams c with
    | none =>
        rw [delivery.absent c found]
        exact List.nil_prefix
    | some conn => exact (delivery.present c conn found).inOrder
  complete c returned := by
    cases found : s.streams c with
    | none =>
        rw [delivery.absent c found] at returned
        cases returned
    | some conn => exact ((delivery.present c conn found).spent (.inr returned)).eq
  forwarded := delivery.forwarded

section Steps

variable {parse : String → Except π P} {s s' : Sockets P K C H ε π} {c : ConnId}
  {conn : Socketed ε} {trace out : List (SocketObs P C H ε π)}

/-- An event on one connection. -/
theorem Delivery.update (delivery : Delivery parse s trace)
    (streams : s'.streams = Function.update s.streams c (some conn))
    (own : ∀ o ∈ out, o.client = some c)
    (progress : Progress parse conn (out.foldl .note (history c trace)))
    (forwarded : taken out = [] ∧
      s'.channel = s.channel ++ (yielded out).map fun entry => forward entry.1 entry.2) :
    Delivery parse s' (trace ++ out) where
  absent d found := by
    have other : d ≠ c := by
      rintro rfl
      rw [streams, Function.update_self] at found
      cases found
    rw [streams, Function.update_of_ne other] at found
    rw [history_append_of_other fun o member => by simpa [own o member] using other.symm]
    exact delivery.absent d found
  present d conn' found := by
    by_cases same : d = c
    · subst same
      rw [streams, Function.update_self] at found
      cases found
      rw [history_append_of_own own]
      exact progress
    · rw [streams, Function.update_of_ne same] at found
      rw [history_append_of_other fun o member => by simpa [own o member] using Ne.symm same]
      exact delivery.present d conn' found
  forwarded := by
    rw [taken_append, yielded_append, forwarded.1, forwarded.2, List.append_nil, List.map_append,
      ← List.append_assoc, delivery.forwarded]

/-- The task of a connection handles an item. -/
theorem Delivery.handleItem {item : Item P ε π} (delivery : Delivery parse s trace)
    (progress : Progress parse conn
      { history c trace with items := (history c trace).items ++ [item] })
    (last : item = .ok .stopDaemon → conn.rx.isDone = true) :
    Delivery parse ((s.withStream c conn).handleItem c item).1
      (trace ++ ((s.withStream c conn).handleItem c item).2) := by
  have streams : ((s.withStream c conn).handleItem c item).1.streams =
      Function.update s.streams c (some conn) := Sockets.handleItem_streams _ c item
  rcases item with e | (path | _)
  · exact delivery.update streams (by simp [Sockets.handleItem, SocketObs.client]) progress
      ⟨rfl, rfl⟩
  · exact delivery.update streams (by simp [Sockets.handleItem, SocketObs.client]) progress
      ⟨rfl, rfl⟩
  · exact delivery.update streams (by simp [Sockets.handleItem, SocketObs.client])
      (progress.returned (progress.spent (.inl (last rfl)))) ⟨rfl, rfl⟩

/-- The task of a connection polls its receiver. -/
theorem Delivery.polled (delivery : Delivery parse s trace) (found : s.streams c = some conn)
    (effect : PollEffect parse s c conn s' out) : Delivery parse s' (trace ++ out) := by
  have progress := delivery.present c conn found
  cases effect with
  | pending active valid active' ending same =>
      exact delivery.update rfl (by simp) (progress.pending active valid active' ending same)
        ⟨rfl, (List.append_nil _).symm⟩
  | done done =>
      exact delivery.update rfl (by simp [SocketObs.client])
        (progress.returned (progress.spent (.inl done))) ⟨rfl, (List.append_nil _).symm⟩
  | ended active valid active' ending same spent =>
      exact delivery.update rfl (by simp [SocketObs.client])
        ((progress.pending active valid active' ending same).returned
          (progress.spent_of_ended active spent)) ⟨rfl, (List.append_nil _).symm⟩
  | item active valid done ending front =>
      refine delivery.handleItem (progress.item active valid done ending front) ?_
      rintro rfl
      exact done
  | failure active valid done ending ended last =>
      exact delivery.handleItem (progress.failure active valid done ending ended last) (by simp)

end Steps

section Run

variable {R : Type}

theorem Schedules.untaken {out : List (Obs P C H R)} {fresh begun : List P}
    (sched : Schedules out fresh begun) : out.filterMap Obs.taken = [] := by
  refine List.filterMap_eq_nil_iff.mpr fun o member => ?_
  rcases sched.only o member with ⟨path, rfl⟩ | ⟨path, rfl⟩ <;> rfl

variable [DecidableEq K] (hash : P → K)

/-- The steps of `run` take messages off the front of the channel. -/
theorem step_taken {t t' : State P K C H R} {input : Input P C H R} {out : List (Obs P C H R)}
    (ofRun : input.ofRun = true) (h : step hash t input = some (t', out)) :
    out.filterMap Obs.taken ++ t'.net.channel = t.net.channel := by
  cases step_turn hash h with
  | connect | send | close | handleIo => cases ofRun
  | accept | closureFailed | leaveLoop | finish => rfl
  | @recv message rest selecting channel =>
      rw [channel]
      rcases message with e | (path | writer)
      · rfl
      · rfl
      · cases requested : t.loop.stopProgressWriter <;>
          simp [Loop.recv, Obs.taken, requested]
  | closureComputed selecting found =>
      rw [List.filterMap_cons_none rfl, (schedulePaths_eq hash _ _).2.untaken]
      rfl
  | @pathDone i path result selecting found =>
      rw [List.filterMap_cons_none rfl, (completePath_eq t.loop i path result).2.untaken]
      rfl
  | @drainDone i path result ok draining found =>
      rw [List.filterMap_cons_none rfl, List.filterMap_cons_none rfl,
        (completePath_eq t.loop i path result).2.untaken]
      rfl

variable {parse : String → Except π P}

/-- **Every event keeps what the histories say.** -/
theorem Delivery.effect {s s' : Sockets P K C H ε π} {trace out : List (SocketObs P C H ε π)}
    (delivery : Delivery parse s trace) (effect : SocketEffect parse hash s s' out) :
    Delivery parse s' (trace ++ out) := by
  cases effect with
  | connected c fresh =>
      refine delivery.update rfl (by simp [SocketObs.client]) ?_ ⟨rfl, (List.append_nil _).symm⟩
      rw [delivery.absent c fresh]
      exact progress_new
  | wrote c conn bytes found opened =>
      exact delivery.update rfl (by simp [SocketObs.client])
        ((delivery.present c conn found).wrote opened bytes) ⟨rfl, (List.append_nil _).symm⟩
  | closed c conn ending found opened =>
      exact delivery.update rfl (by simp [SocketObs.client])
        ((delivery.present c conn found).closed opened ending) ⟨rfl, (List.append_nil _).symm⟩
  | polled c conn running found effect => exact delivery.polled found effect
  | daemon input t outputs ofRun done =>
      refine ⟨fun c found => ?_, fun c conn found => ?_, ?_⟩
      · rw [history_daemon]
        exact delivery.absent c found
      · rw [history_daemon]
        exact delivery.present c conn found
      · have silent : yielded (outputs.map .daemon : List (SocketObs P C H ε π)) = [] := by
          rw [yielded, List.filterMap_map]
          exact List.filterMap_eq_nil_iff.mpr fun o _ => rfl
        have passed : taken (outputs.map .daemon : List (SocketObs P C H ε π)) =
            outputs.filterMap Obs.taken := by
          rw [taken, List.filterMap_map]
          rfl
        have channel : outputs.filterMap Obs.taken ++ (s.after t).channel = s.channel :=
          step_taken hash ofRun done
        rw [taken_append, yielded_append, silent, passed, List.append_nil, List.append_assoc,
          channel]
        exact delivery.forwarded

/-- It holds in every state that a run reaches. -/
theorem delivery_of_run {is : List (SocketInput P C H ε π)} {s : Sockets P K C H ε π}
    {trace : List (SocketObs P C H ε π)}
    (hrun : (socketMachine parse hash).run Sockets.init is = some (s, trace)) :
    Delivery parse s trace := by
  have start : Delivery parse (Sockets.init : Sockets P K C H ε π) [] :=
    ⟨fun _ _ => rfl, fun _ _ found => (by cases found), rfl⟩
  exact (socketMachine parse hash).run_invariant (I := Delivery parse)
    (fun s trace i s' out delivery hstep =>
      delivery.effect hash
        (socketStep_effect (fun c conn found => (delivery.present c conn found).valid) hstep))
    start hrun

/-- **What the clients write is delivered once and in order**, in every run of the daemon
on its sockets.

The statement is about the history of each connection alone.  The invariant (`Delivery`)
ties it to the stream: whatever else the client may write, what it has written decodes to
the items that there have been, followed by what is decoded from the bytes that the receiver
and the socket still hold. -/
theorem sockets_deliver {is : List (SocketInput P C H ε π)} {s : Sockets P K C H ε π}
    {trace : List (SocketObs P C H ε π)}
    (hrun : (socketMachine parse hash).run Sockets.init is = some (s, trace)) :
    Delivers parse s trace :=
  (delivery_of_run hash hrun).delivers

end Run

/-- A line that is written in two pieces, and read in others. -/
theorem sockets_deliver_split_line :
    ∃ (s : Sockets String String Unit Unit Unit Unit) (trace : List (SocketObs _ _ _ _ _)),
      (socketMachine anyLine id).run Sockets.init splitLineRun = some (s, trace) ∧
        Delivers anyLine s trace := by
  obtain ⟨s, trace, hrun, -⟩ := splitLineRun_runs
  exact ⟨s, trace, hrun, sockets_deliver id hrun⟩

end EventLoop

end CacheAction
