import CacheAction.EventLoop.SocketDelivery
import CacheAction.EventLoop.SocketWork
import CacheAction.Protocol.CutOff
import CacheAction.Protocol.Delivery

/-!
# Push clients and the daemon

The two ends of the socket together: the calls that `push` makes on its `Sender`, and
what the daemon makes of the bytes.  A client may be killed after any of its calls, its
socket may take its bytes in any pieces or fail, and the bytes may be lost from any
point on.  The daemon then gets the store paths whose lines have arrived, and nothing
else (`push_delivered`, `pushes_arrived`).

Three earlier results meet here.  What the writer of a `Sender` has accepted is a prefix of
the encoded messages (`Sender.Delivered`); what a connection yields is the decoding of the
bytes that have been written on it (`Delivers`); and the decoding of a prefix of encoded
messages is those whose last byte has come (`decode_take_encodeAll`).  The socket in between is
the hypothesis `piped`: what arrives is a prefix of what was accepted.

A path whose line does not fit, or has a newline in it, is not delivered in this sense; see
`session_roundTrip_iff` for what becomes of it.
-/

namespace CacheAction

namespace EventLoop

variable {P K C H ε π : Type}

/-! ## `push` -/

section Push

variable {B E ρ : Type} {codec : BasenameCodec B E}

/-- The calls of `push`: the messages are fed, and the sender is closed, which takes
some polls. -/
def pushCalls (paths : List (StorePath B)) (polls : ℕ) : List (Sender.Call (StorePath B)) :=
  (session paths false).map .startSend ++ List.replicate polls .pollClose

/-- The messages sent by some calls. -/
def sentBy (made : List (Sender.Call (StorePath B))) : List (Message (StorePath B)) :=
  made.filterMap fun
    | .startSend message => some message
    | _ => none

/-- The calls of `push` are those for its session, without a stop. -/
theorem sentBy_pushCalls (paths : List (StorePath B)) (polls : ℕ) :
    sentBy (pushCalls paths polls) = session paths false := by
  have fed : (session paths false).filterMap (fun message => some message) =
      session paths false := List.filterMap_some
  rw [sentBy, pushCalls, List.filterMap_append, List.filterMap_map,
    List.filterMap_replicate_of_none rfl, List.append_nil]
  exact fed

/-- The bytes of a sender in use are those of the messages sent. -/
theorem sentBytes_of_run {link link' : Sender.Link ρ} {made : List (Sender.Call (StorePath B))}
    {called : List (Sender.Called (StorePath B) ρ)}
    (hrun : (Sender.calls (StorePath.display codec)).run link made = some (link', called)) :
    Sender.sentBytes (StorePath.display codec) called = encodeAll codec (sentBy made) := by
  induction made generalizing link called with
  | nil =>
      cases hrun
      rfl
  | cons call rest ih =>
      obtain ⟨link₁, out, tail, hstep, hrest, rfl⟩ := (Machine.run_cons_eq_some _).mp hrun
      rw [Sender.sentBytes_append, ih hrest]
      cases call with
      | startSend message =>
          cases hstep
          simp [Sender.sentBytes, sentBy, encodeAll]
      | pollFlush =>
          obtain ⟨answer, -, heq⟩ := Option.map_eq_some_iff.mp hstep
          cases heq
          rfl
      | pollClose =>
          obtain ⟨answer, -, heq⟩ := Option.map_eq_some_iff.mp hstep
          cases heq
          rfl

/-- Whatever the calls, the sender has delivered the bytes in order. -/
theorem delivered_of_run {schedule : ℕ → WriteChoice ρ}
    {made : List (Sender.Call (StorePath B))} {link : Sender.Link ρ}
    {called : List (Sender.Called (StorePath B) ρ)}
    (client : (Sender.calls (StorePath.display codec)).run (Sender.Link.start schedule) made =
      some (link, called)) :
    Sender.Delivered (StorePath.display codec) called link := by
  have inUse := Sender.inUse_of_run client
  refine ⟨?_, inUse.delivers.1, inUse.complete⟩
  exact inUse.delivers.prefix

/-- However far `push` has come, its writer has accepted the first bytes of its
messages. -/
theorem accepted_of_push {schedule : ℕ → WriteChoice ρ} {paths : List (StorePath B)}
    {polls : ℕ} {made : List (Sender.Call (StorePath B))} {link : Sender.Link ρ}
    {called : List (Sender.Called (StorePath B) ρ)} (cut : made <+: pushCalls paths polls)
    (client : (Sender.calls (StorePath.display codec)).run (Sender.Link.start schedule) made =
      some (link, called)) :
    link.writer.accepted <+: encodeAll codec (session paths false) := by
  have sent := (delivered_of_run client).inOrder
  rw [sentBytes_of_run client] at sent
  obtain ⟨others, whole⟩ := cut
  refine sent.trans ?_
  rw [← sentBy_pushCalls paths polls, ← whole, sentBy, sentBy, List.filterMap_append, encodeAll,
    encodeAll, List.flatMap_append]
  exact List.prefix_append _ _

variable [DecidableEq K] (hash : StorePath B → K)

/-- **A stream of messages that is cut off anywhere** is yielded up to the last message
that has arrived. -/
theorem cut_off_delivered (lawful : codec.Lawful)
    {is : List (SocketInput (StorePath B) C H ε (StorePathError E))}
    {s : Sockets (StorePath B) K C H ε (StorePathError E)}
    {trace : List (SocketObs (StorePath B) C H ε (StorePathError E))}
    (hrun : (socketMachine (StorePath.fromStr codec) hash).run Sockets.init is =
      some (s, trace)) {c : ConnId} {paths : List (StorePath B)} {stop : Bool}
    (accepted : ∀ path ∈ paths, path.Accepted codec) (fits : ∀ path ∈ paths, LineFits codec path)
    (sent : (history c trace).written <+: encodeAll codec (session paths stop)) :
    let got := arrived codec (history c trace).written.length (session paths stop)
    (history c trace).items <+: got.map .ok ++ lastItem (history c trace).ending got ∧
      ((history c trace).returned = true →
        (history c trace).items = got.map .ok ++ lastItem (history c trace).ending got) := by
  have delivers := (delivery_of_run hash hrun).delivers
  have decoded := decode_take_encodeAll lawful paths accepted fits stop (history c trace).ending
    (history c trace).written.length
  rw [← List.prefix_iff_eq_take.mp sent] at decoded
  dsimp only
  rw [← decoded]
  exact ⟨delivers.inOrder c, delivers.complete c⟩

/-- **A push is delivered as far as it gets.**  Its client may be killed after any of its
calls, with any schedule of its writer, and the socket may lose the last bytes; when the
sender has been closed with success and nothing is lost, everything arrives.

Three prefixes are chained here.  What the writer has accepted is a prefix of the encoding,
what the socket has carried is a prefix of that, and the messages whose last byte is in it
are a prefix of the session.  The receiver forwards these and then at most the item that the
end of the stream makes of an unfinished line. -/
theorem push_delivered (lawful : codec.Lawful)
    {is : List (SocketInput (StorePath B) C H ε (StorePathError E))}
    {s : Sockets (StorePath B) K C H ε (StorePathError E)}
    {trace : List (SocketObs (StorePath B) C H ε (StorePathError E))}
    (hrun : (socketMachine (StorePath.fromStr codec) hash).run Sockets.init is =
      some (s, trace)) {c : ConnId} {paths : List (StorePath B)}
    (accepted : ∀ path ∈ paths, path.Accepted codec) (fits : ∀ path ∈ paths, LineFits codec path)
    {schedule : ℕ → WriteChoice ρ} {polls : ℕ} {made : List (Sender.Call (StorePath B))}
    {link : Sender.Link ρ} {called : List (Sender.Called (StorePath B) ρ)}
    (cut : made <+: pushCalls paths polls)
    (client : (Sender.calls (StorePath.display codec)).run (Sender.Link.start schedule) made =
      some (link, called))
    (piped : (history c trace).written <+: link.writer.accepted) :
    let got := arrived codec (history c trace).written.length (session paths false)
    got <+: session paths false ∧
      (history c trace).items <+: got.map .ok ++ lastItem (history c trace).ending got ∧
      ((history c trace).returned = true →
        (history c trace).items = got.map .ok ++ lastItem (history c trace).ending got) ∧
      ∀ before, made = pushCalls paths polls →
        called = before ++ [.polled (.ready (.ok ())) (history c trace).written] →
        got = session paths false := by
  have sent := piped.trans (accepted_of_push cut client)
  obtain ⟨inOrder, complete⟩ := cut_off_delivered hash lawful hrun accepted fits sent
  refine ⟨?_, inOrder, complete, ?_⟩
  · exact arrived_prefix codec _ _
  rintro before rfl rfl
  have whole := (delivered_of_run client).complete before _ [] rfl _ rfl
  have bytes := sentBytes_of_run client
  rw [Sender.sentBytes_append, ← whole, sentBy_pushCalls] at bytes
  refine arrived_of_le codec ?_
  rw [← bytes]
  simp [Sender.sentBytes]

/-- **No store path is received that was not pushed.**  When every client writes
messages, however far it gets, the paths that `run` receives are those whose lines have
arrived to the last byte. -/
theorem pushes_arrived (lawful : codec.Lawful)
    {is : List (SocketInput (StorePath B) C H ε (StorePathError E))}
    {s : Sockets (StorePath B) K C H ε (StorePathError E)}
    {trace : List (SocketObs (StorePath B) C H ε (StorePathError E))}
    (hrun : (socketMachine (StorePath.fromStr codec) hash).run Sockets.init is =
      some (s, trace)) {paths : ConnId → List (StorePath B)} {stop : ConnId → Bool}
    (accepted : ∀ c, ∀ path ∈ paths c, path.Accepted codec)
    (fits : ∀ c, ∀ path ∈ paths c, LineFits codec path)
    (sent : ∀ c, (history c trace).written <+: encodeAll codec (session (paths c) (stop c)))
    {path : StorePath B} (pushed : path ∈ (ledger (trace.filterMap SocketObs.seen)).pushes) :
    ∃ c, .pushStorePath path ∈
      arrived codec (history c trace).written.length (session (paths c) (stop c)) := by
  have received : .daemon (.received (.pushStorePath path)) ∈ trace := by
    obtain ⟨o, member, reads⟩ := List.mem_filterMap.mp pushed
    split at reads <;> cases reads
    exact daemon_mem_of_seen member
  have inChannel : .ok (.pushStorePath path) ∈
      (yielded trace).map fun entry => forward entry.1 entry.2 := by
    rw [← (delivery_of_run hash hrun).delivers.forwarded]
    exact List.mem_append_left _ (List.mem_filterMap.mpr ⟨_, received, rfl⟩)
  obtain ⟨⟨c, item⟩, entry, forwarded⟩ := List.mem_map.mp inChannel
  obtain rfl : item = .ok (.pushStorePath path) := by
    rcases item with e | (other | _) <;> cases forwarded
    rfl
  have inHistory : .ok (.pushStorePath path) ∈ (history c trace).items := by
    rw [history_items]
    exact List.mem_filterMap.mpr ⟨_, entry, if_pos rfl⟩
  have inOrder := (cut_off_delivered hash lawful hrun (accepted c) (fits c) (sent c)).1
  refine ⟨c, ?_⟩
  rcases List.mem_append.mp (inOrder.subset inHistory) with got | last
  · obtain ⟨message, member, same⟩ := List.mem_map.mp got
    cases same
    exact member
  · exact absurd last (notMem_lastItem _ _ _)

end Push

/-- A push of two paths, cut off in the second line; the receiver reads seven bytes at
a time. -/
def cutOffRun : List (SocketInput (StorePath NixBasename) Unit Unit Unit (StorePathError Unit)) :=
  [.connect 0,
    .write 0 ((encodeAll nixBasenameCodec (session [helloPath, helloPath] false)).take 60),
    .close 0 .eof, .daemon .accept, .pollIo 0 fun _ => .upTo 7, .pollIo 0 fun _ => .upTo 7,
    .daemon .recv]

/-- A client of which the socket carries 60 bytes: one path and the beginning of another. -/
theorem cutOffRun_runs :
    ∃ (s : Sockets (StorePath NixBasename) (StorePath NixBasename) Unit Unit Unit _)
      (trace : List (SocketObs _ _ _ _ _)),
      (socketMachine (StorePath.fromStr nixBasenameCodec) id).run Sockets.init cutOffRun =
          some (s, trace) ∧
        (history 0 trace).written =
          (encodeAll nixBasenameCodec (session [helloPath, helloPath] false)).take 60 ∧
        (history 0 trace).closing = some .eof ∧ (history 0 trace).returned = true := by
  have read : (((socketMachine (K := StorePath NixBasename) (StorePath.fromStr nixBasenameCodec)
      id).run Sockets.init cutOffRun).map fun next =>
        ((history 0 next.2).written, (history 0 next.2).closing,
          (history 0 next.2).returned)) =
      some ((encodeAll nixBasenameCodec (session [helloPath, helloPath] false)).take 60,
        some .eof, true) := by
    decide +kernel
  obtain ⟨⟨s, trace⟩, hrun, values⟩ := Option.map_eq_some_iff.mp read
  simp only [Prod.mk.injEq] at values
  exact ⟨s, trace, hrun, values⟩

/-- The first path is delivered, and nothing of the second one. -/
theorem push_delivered_cut_off :
    ∃ (s : Sockets (StorePath NixBasename) (StorePath NixBasename) Unit Unit Unit _)
      (trace : List (SocketObs _ _ _ _ _)),
      (socketMachine (StorePath.fromStr nixBasenameCodec) id).run Sockets.init cutOffRun =
          some (s, trace) ∧
        (history 0 trace).items = [.ok (.pushStorePath helloPath)] := by
  obtain ⟨s, trace, hrun, written, closing, returned⟩ := cutOffRun_runs
  have client : (Sender.calls (ε := Empty) (StorePath.display nixBasenameCodec)).run
      (Sender.Link.start fun _ => .upTo 4096) (pushCalls [helloPath, helloPath] 1) =
        some (_, _) := rfl
  have piped : (history 0 trace).written <+:
      encodeAll nixBasenameCodec (session [helloPath, helloPath] false) := by
    rw [written]
    exact List.take_prefix _ _
  obtain ⟨-, -, complete, -⟩ := push_delivered id nixBasenameCodec_lawful hrun
    (by simpa using accepted_helloPath) (by decide +kernel) List.prefix_rfl client piped
  refine ⟨s, trace, hrun, (complete returned).trans ?_⟩
  rw [written, History.ending, closing,
    show arrived nixBasenameCodec _ (session [helloPath, helloPath] false) =
      [.pushStorePath helloPath] by decide +kernel]
  rfl

end EventLoop

end CacheAction
