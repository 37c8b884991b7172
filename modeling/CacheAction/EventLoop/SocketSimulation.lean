import CacheAction.EventLoop.Sockets

/-!
# The daemon on its sockets, seen as one on messages

Nothing can happen on the sockets that cannot happen in the model with messages
(`sockets_simulated`).  A client of that model sends a message when the bytes that
complete it are written; it closes its end when the client of the socket does, or
when the bytes have become a line that the receiver has no room for.

The relation is `SameStream`: the inbox of the connection with messages is the
decoding of the bytes that the receiver has before it, as if the stream ended
there.  A piece of bytes only adds messages to it (`decode_prefix`), and a poll of
the receiver takes the first one away (`Receiver.pollNext_stream`).

### Two points at which the models differ

*When a message is there.*  On a socket a message has no moment of arrival: its bytes come in
pieces, and the receiver may have read some of them before the others are written.  The
client with messages sends it when its last byte is *written*, wherever the bytes are by then.
So the relation speaks of the bytes in the receiver's buffer and of those in the socket
together, and moving bytes from one to the other is no step of the model with messages.

*When a connection is over.*  A receiver stops for good when a line does not fit its buffer,
and it does so without an item, as if the stream had ended.  Its client may still be writing.
The stand-in then closes its end at once, since nothing that follows will ever be read
(`Exhausted`).  Whether a list of bytes is exhausted cannot be computed by looking at all its
continuations; the stand-in is a construct of the proof, so its existence is shown with
excluded middle (`SameStream.exists_grow`), and no definition of the model depends on it.

### What is observed

The outputs that the two must share are those of `run` (`Obs.seen`).  What clients do is not
compared, because it is not the same: one writes bytes, the other sends messages.
-/

namespace CacheAction

namespace EventLoop

variable {P K C H ε π : Type}

/-! ## The relation -/

section Relation

variable (parse : String → Except π P)

/-- Nothing that follows changes what is decoded: the bytes contain a stop, an error, or a line
that is too long. -/
def Exhausted (ε : Type) (bytes : List UInt8) : Prop :=
  ∀ (ending : Ending ε) more,
    (decode parse ending (bytes ++ more) : List (Item P ε π)) = decode parse .eof bytes

/-- A connection with bytes, and the one with messages that stands for it.  Once the receiver
is done nothing is said of the inbox: its task has returned or is about to, and what the
client goes on writing is never looked at. -/
structure SameStream (conn : Socketed ε) (messages : Connection P (ReceiveError ε π)) :
    Prop where
  valid : conn.rx.Valid
  rxDone : messages.rxDone = conn.rx.isDone
  inbox : conn.rx.isDone = false →
    messages.inbox = decode parse (conn.ending.getD .eof) conn.bytes
  ended : conn.ending.isSome = true → messages.closed = true
  exhausted : conn.rx.isDone = false → Exhausted parse ε conn.bytes → messages.closed = true
  closed : messages.closed = true →
    conn.ending.isSome = true ∨ conn.rx.isDone = true ∨ Exhausted parse ε conn.bytes

/-- The connections of the two. -/
def SameStreams (streams : ConnId → Option (Socketed ε))
    (clients : ConnId → Option (Connection P (ReceiveError ε π))) : Prop :=
  ∀ c, Option.Rel (SameStream parse) (streams c) (clients c)

/-- The daemon on its sockets, and the one on messages that stands for it.  Apart from the
connections the two states are equal, field by field. -/
def Related (s : Sockets P K C H ε π) (t : State P K C H (ReceiveError ε π)) : Prop :=
  ∃ clients, t = s.withClients clients ∧ SameStreams parse s.streams clients

end Relation

/-- The output comes from a client. -/
def Obs.fromClient {R : Type} : Obs P C H R → Bool
  | .connected _ => true
  | .sent _ _ => true
  | .clientClosed _ => true
  | _ => false

/-- What is seen of the outputs: all that `run` does, and nothing of the clients. -/
def Obs.seen {R : Type} (o : Obs P C H R) : Option (Obs P C H R) :=
  if o.fromClient then none else some o

/-- The same for the outputs of the daemon on its sockets. -/
def SocketObs.seen : SocketObs P C H ε π → Option (Obs P C H (ReceiveError ε π))
  | .daemon o => o.seen
  | _ => none

/-! ## Clients that send messages -/

section Clients

variable {R : Type} {t : State P K C H R} {c : ConnId} {conn : Connection P R}

/-- The state with another connection. -/
def State.withClient (t : State P K C H R) (c : ConnId) (conn : Connection P R) :
    State P K C H R :=
  { t with net := { t.net with clients := Function.update t.net.clients c (some conn) } }

/-- To replace a connection by itself changes nothing. -/
theorem withClient_self (found : t.net.clients c = some conn) : t.withClient c conn = t := by
  unfold State.withClient
  rw [← found, Function.update_eq_self]

variable (t c conn) in
theorem withClient_withClient (conn' : Connection P R) :
    (t.withClient c conn).withClient c conn' = t.withClient c conn' := by
  unfold State.withClient
  rw [Function.update_idem]

@[simp] theorem withClient_clients :
    (t.withClient c conn).net.clients = Function.update t.net.clients c (some conn) := rfl

variable [DecidableEq K] (hash : P → K)

/-- A client that sends some messages.  One step for each of them, so that the induction is on the
list and the connection is general. -/
theorem run_sends (found : t.net.clients c = some conn) (opened : conn.closed = false)
    (items : List (Except R (Message P))) :
    (machine (C := C) (H := H) hash).run t (items.map (.send c)) =
      some (t.withClient c { conn with inbox := conn.inbox ++ items }, items.map (.sent c)) := by
  induction items generalizing t conn with
  | nil => simp [Machine.run, withClient_self found]
  | cons item rest ih =>
      have first : step hash t (.send c item) =
          some (t.withClient c { conn with inbox := conn.inbox ++ [item] },
            ([.sent c item] : List (Obs P C H R))) := by
        simp [step, Net.send, found, opened, State.withClient]
      have others := ih (t := t.withClient c { conn with inbox := conn.inbox ++ [item] })
        (Function.update_self c _ _) opened
      rw [withClient_withClient, List.append_assoc] at others
      rw [List.map_cons, Machine.run_cons_eq_some]
      exact ⟨_, _, _, first, others, rfl⟩

/-- A client that makes its inbox longer and possibly closes its end. -/
theorem exists_run_extend (found : t.net.clients c = some conn) (opened : conn.closed = false)
    {items : List (Except R (Message P))} (longer : conn.inbox <+: items) (closed : Bool) :
    ∃ js out, (machine (C := C) (H := H) hash).run t js =
        some (t.withClient c { conn with inbox := items, closed }, out) ∧
      out.filterMap Obs.seen = [] := by
  obtain ⟨rest, rfl⟩ := longer
  have sent := run_sends (C := C) (H := H) hash found opened rest
  have unseen : (rest.map (.sent c) : List (Obs P C H R)).filterMap Obs.seen = [] := by
    rw [List.filterMap_map, List.filterMap_eq_nil_iff]
    intro item _
    rfl
  cases closed with
  | false => exact ⟨_, _, by rw [sent, ← opened], unseen⟩
  | true =>
      have last : (machine (C := C) (H := H) hash).run
          (t.withClient c { conn with inbox := conn.inbox ++ rest }) [.close c] =
          some (t.withClient c { conn with inbox := conn.inbox ++ rest, closed := true },
            [.clientClosed c]) := by
        rw [← withClient_withClient t c { conn with inbox := conn.inbox ++ rest }]
        simp [Machine.run, machine, step, Net.close, opened, State.withClient]
      refine ⟨_, _, Machine.run_append _ sent last, ?_⟩
      rw [List.filterMap_append, unseen]
      rfl

end Clients

/-! ## Steps -/

section Steps

variable {parse : String → Except π P} {streams : ConnId → Option (Socketed ε)}
  {clients : ConnId → Option (Connection P (ReceiveError ε π))} {c : ConnId} {conn : Socketed ε}
  {messages : Connection P (ReceiveError ε π)}

/-- Connections are related one by one. -/
theorem SameStreams.update (same : SameStreams parse streams clients)
    (related : SameStream parse conn messages) :
    SameStreams parse (Function.update streams c (some conn))
      (Function.update clients c (some messages)) := by
  intro d
  by_cases h : d = c
  · subst h
    rw [Function.update_self, Function.update_self]
    exact .some related
  · rw [Function.update_of_ne h, Function.update_of_ne h]
    exact same d

/-- A connection has its stand-in, -/
theorem SameStreams.found (same : SameStreams parse streams clients)
    (hconn : streams c = some conn) :
    ∃ messages, clients c = some messages ∧ SameStream parse conn messages := by
  have related := same c
  rw [hconn] at related
  cases hclient : clients c with
  | none =>
      rw [hclient] at related
      cases related
  | some messages =>
      rw [hclient] at related
      cases related with
      | some related => exact ⟨messages, rfl, related⟩

/-- and where there is none, there is no stand-in either. -/
theorem SameStreams.fresh (same : SameStreams parse streams clients)
    (hconn : streams c = none) : clients c = none := by
  have related := same c
  rw [hconn] at related
  cases hclient : clients c with
  | none => rfl
  | some messages =>
      rw [hclient] at related
      cases related

/-- What is exhausted remains so. -/
theorem Exhausted.append {bytes : List UInt8} (exhausted : Exhausted parse ε bytes)
    (more : List UInt8) : Exhausted parse ε (bytes ++ more) := by
  intro ending rest
  rw [List.append_assoc, exhausted, exhausted]

theorem decode_nil : (decode parse (.eof : Ending ε) [] : List (Item P ε π)) = [] :=
  Receiver.decode_ending (by decide) (by simp) rfl

/-- Any stream may go on with a stop. -/
theorem not_exhausted_nil : ¬ Exhausted parse ε [] := by
  intro exhausted
  have stop := exhausted .eof ([stopSentinel] ++ [])
  rw [List.nil_append, Receiver.decode_stop rfl, decode_nil] at stop
  cases stop

/-- A new connection. -/
theorem sameStream_new :
    SameStream parse ({ unread := [], ending := none, rx := .new } : Socketed ε)
      { inbox := [], closed := false, rxDone := false } where
  valid := Receiver.valid_new
  rxDone := rfl
  inbox _ := decode_nil.symm
  ended := by rintro ⟨⟩
  exhausted _ exhausted := absurd exhausted not_exhausted_nil
  closed := by rintro ⟨⟩

/-- Once its stand-in has closed its end, nothing more can come of an open stream. -/
theorem SameStream.exhausted_of_closed (same : SameStream parse conn messages)
    (opened : conn.ending = none) (active : conn.rx.isDone = false)
    (closed : messages.closed = true) : Exhausted parse ε conn.bytes := by
  rcases same.closed closed with ended | done | exhausted
  · rw [opened] at ended
    cases ended
  · rw [active] at done
    cases done
  · exact exhausted

/-- The stand-in has closed its end, and need not do anything. -/
theorem SameStream.grow_of_closed (same : SameStream parse conn messages)
    (opened : conn.ending = none) (closed : messages.closed = true) (more : List UInt8)
    (ending : Option (Ending ε)) :
    SameStream parse { conn with unread := conn.unread ++ more, ending } messages where
  valid := same.valid
  rxDone := same.rxDone
  inbox active := by
    have exhausted := same.exhausted_of_closed opened active closed
    rw [same.inbox active, opened, Option.getD_none, ← exhausted (ending.getD .eof) more,
      Socketed.bytes, List.append_assoc]
    rfl
  ended _ := closed
  exhausted _ _ := closed
  closed _ := by
    by_cases done : conn.rx.isDone = true
    · exact .inr (.inl done)
    · have exhausted := same.exhausted_of_closed opened (by simpa using done) closed
      have longer := exhausted.append more
      rw [Socketed.bytes, List.append_assoc] at longer
      exact .inr (.inr longer)

open Classical in
/-- The stand-in of a connection that has grown or ended. -/
theorem SameStream.exists_grow (same : SameStream parse conn messages)
    (opened : conn.ending = none) (more : List UInt8) (ending : Option (Ending ε)) :
    ∃ items closed, messages.inbox <+: items ∧
      SameStream parse { conn with unread := conn.unread ++ more, ending }
        { messages with inbox := items, closed } := by
  have bytes : ({ conn with unread := conn.unread ++ more, ending } : Socketed ε).bytes =
      conn.bytes ++ more := (List.append_assoc _ _ _).symm
  by_cases done : conn.rx.isDone = true
  -- nothing is said of the inbox of a receiver that is done
  · refine ⟨messages.inbox, ending.isSome, List.prefix_rfl, same.valid, same.rxDone, ?_, id, ?_,
      .inl⟩
    · intro active
      exact absurd (active.symm.trans done) Bool.false_ne_true
    · intro active
      exact absurd (active.symm.trans done) Bool.false_ne_true
  · have active : conn.rx.isDone = false := by simpa using done
    refine ⟨decode parse (ending.getD .eof) (conn.bytes ++ more),
      decide (ending.isSome = true ∨ Exhausted parse ε (conn.bytes ++ more)), ?_, same.valid,
      same.rxDone, ?_, ?_, ?_, ?_⟩
    · rw [same.inbox active, opened, Option.getD_none]
      exact decode_prefix parse _ _ _
    · intro _
      rw [bytes]
    · intro ended
      exact decide_eq_true (.inl ended)
    · intro _ exhausted
      exact decide_eq_true (.inr (bytes ▸ exhausted))
    · intro closed
      rw [bytes]
      exact (of_decide_eq_true closed).imp_right .inr

variable [DecidableEq K] (hash : P → K)

/-- **A client that writes or closes its end.**  Its stand-in sends what has become
complete. -/
theorem exists_run_grow {s : Sockets P K C H ε π} (found : clients c = some messages)
    (same : SameStream parse conn messages) (opened : conn.ending = none) (more : List UInt8)
    (ending : Option (Ending ε)) :
    ∃ js out messages', (machine hash).run (s.withClients clients) js =
        some (s.withClients (Function.update clients c (some messages')), out) ∧
      SameStream parse { conn with unread := conn.unread ++ more, ending } messages' ∧
      out.filterMap Obs.seen = [] := by
  cases closed : messages.closed with
  | true =>
      refine ⟨[], [], messages, ?_, same.grow_of_closed opened closed more ending, rfl⟩
      rw [← found, Function.update_eq_self]
      rfl
  | false =>
      obtain ⟨items, closed', longer, grown⟩ := same.exists_grow opened more ending
      obtain ⟨js, out, hrun, unseen⟩ := exists_run_extend (C := C) (H := H) hash
        (t := s.withClients clients) found closed longer closed'
      exact ⟨js, out, _, hrun, grown, unseen⟩

omit [DecidableEq K] in
/-- The stand-in's task has one message less to forward. -/
theorem handleIo_forwards {s : Sockets P K C H ε π} {item : Item P ε π}
    {rest : List (Item P ε π)} (running : c ∈ s.tasks) (found : clients c = some messages)
    (active : messages.rxDone = false) (next : messages.inbox = item :: rest)
    (conn' : Socketed ε) :
    (s.withClients clients).net.handleIo c =
      some ((((s.withStream c conn').handleItem c item).1.withClients
        (Function.update clients c
          (some { messages with inbox := rest, rxDone := item.isLast }))).net) := by
  have running' : c ∈ (s.withClients clients).net.tasks := running
  have found' : (s.withClients clients).net.clients c = some messages := found
  rw [Net.handleIo, if_neg (not_not.mpr running'), found']
  dsimp only
  rw [if_neg (by simp [active]), next]
  rcases item with e | (path | _) <;> rfl

omit [DecidableEq K] in
/-- The stand-in's task returns. -/
theorem handleIo_returns {s : Sockets P K C H ε π} (running : c ∈ s.tasks)
    (found : clients c = some messages)
    (spent : messages.rxDone = true ∨ messages.inbox = [] ∧ messages.closed = true) :
    (s.withClients clients).net.handleIo c =
      some (({ s with tasks := s.tasks.erase c }.withClients clients).net) := by
  have running' : c ∈ (s.withClients clients).net.tasks := running
  have found' : (s.withClients clients).net.clients c = some messages := found
  rw [Net.handleIo, if_neg (not_not.mpr running'), found']
  dsimp only
  cases done : messages.rxDone with
  | true => rfl
  | false =>
      obtain ⟨empty, closed⟩ := spent.resolve_left (by simp [done])
      rw [if_neg Bool.false_ne_true, empty]
      dsimp only
      rw [if_pos closed]
      rfl

/-- One step of the stand-in's task, as a run. -/
theorem run_handleIo {s : Sockets P K C H ε π} (s' : Sockets P K C H ε π)
    (clients' : ConnId → Option (Connection P (ReceiveError ε π))) (loop : s'.loop = s.loop)
    (h : (s.withClients clients).net.handleIo c = some (s'.withClients clients').net) :
    (machine hash).run (s.withClients clients) [.handleIo c] =
      some (s'.withClients clients', ([] : List (Obs P C H (ReceiveError ε π)))) := by
  rw [Machine.run_cons_eq_some]
  refine ⟨_, [], [], ?_, rfl, rfl⟩
  show (Net.handleIo _ c).map _ = _
  rw [h, Sockets.withClients, Sockets.withClients, loop]
  rfl

/-- A poll that leaves the bytes where they are. -/
theorem SameStream.pending {conn' : Socketed ε} (related : SameStream parse conn messages)
    (active' : conn'.rx.isDone = false) (valid : conn'.rx.Valid)
    (ending : conn'.ending = conn.ending) (same : conn'.bytes = conn.bytes)
    (active : conn.rx.isDone = false) : SameStream parse conn' messages where
  valid := valid
  rxDone := related.rxDone.trans (active.trans active'.symm)
  inbox _ := by rw [related.inbox active, ending, same]
  ended := by
    rw [ending]
    exact related.ended
  exhausted _ := by
    rw [same]
    exact related.exhausted active
  closed closed := by
    rw [ending, same, active', ← active]
    exact related.closed closed

/-- A poll that takes an item off the front. -/
theorem SameStream.item {conn' : Socketed ε} {item : Item P ε π}
    (related : SameStream parse conn messages) (active : conn.rx.isDone = false)
    (valid : conn'.rx.Valid) (done : conn'.rx.isDone = item.isLast)
    (ending : conn'.ending = conn.ending)
    (front : ∀ (e : Ending ε) more, decode parse e (conn.bytes ++ more) =
      item :: if item.isLast then [] else decode parse e (conn'.bytes ++ more)) :
    ∃ rest, messages.inbox = item :: rest ∧
      SameStream parse conn' { messages with inbox := rest, rxDone := item.isLast } := by
  have now (e : Ending ε) := front e []
  simp only [List.append_nil] at now
  refine ⟨_, (related.inbox active).trans (now _), valid, done.symm, ?_, ?_, ?_, ?_⟩
  · intro active'
    rw [if_neg (by simp [← done, active']), ending]
  · rw [ending]
    exact related.ended
  · intro active' exhausted
    refine related.exhausted active fun e more => ?_
    rw [front, now, exhausted]
  · intro closed
    rw [ending]
    rcases related.closed closed with ended | wasDone | exhausted
    · exact .inl ended
    · exact absurd (active.symm.trans wasDone) Bool.false_ne_true
    · cases last : item.isLast with
      | true => exact .inr (.inl (done.trans last))
      | false =>
          refine .inr (.inr fun e more => ?_)
          have same := exhausted e more
          rw [front, now] at same
          simpa [last] using same

/-- A poll that meets an error of the reader. -/
theorem SameStream.failure {conn' : Socketed ε} {e : ε}
    (related : SameStream parse conn messages) (active : conn.rx.isDone = false)
    (valid : conn'.rx.Valid) (done : conn'.rx.isDone = true)
    (ending : conn'.ending = conn.ending) (ended : conn.ending = some (.failure e))
    (last : decode parse (.failure e) conn.bytes =
      ([.error (.io (.reader e))] : List (Item P ε π))) :
    messages.inbox = [.error (.io (.reader e))] ∧
      SameStream parse conn' { messages with inbox := [], rxDone := true } := by
  refine ⟨?_, valid, done.symm, ?_, ?_, ?_, fun _ => .inr (.inl done)⟩
  · rw [related.inbox active, ended]
    exact last
  · intro active'
    exact absurd (active'.symm.trans done) Bool.false_ne_true
  · rw [ending]
    exact related.ended
  · intro active'
    exact absurd (active'.symm.trans done) Bool.false_ne_true

/-- **Every poll is matched.** -/
theorem pollIo_matched {s s' : Sockets P K C H ε π} {out : List (SocketObs P C H ε π)}
    (same : SameStreams parse s.streams clients) (running : c ∈ s.tasks)
    (found : s.streams c = some conn) (effect : PollEffect parse s c conn s' out) :
    ∃ js t' out', (machine hash).run (s.withClients clients) js = some (t', out') ∧
      Related parse s' t' ∧ out'.filterMap Obs.seen = out.filterMap SocketObs.seen := by
  obtain ⟨messages, hclient, related⟩ := same.found found
  have kept : Function.update clients c (some messages) = clients := by
    rw [← hclient, Function.update_eq_self]
  -- a poll that leaves the stand-in's queue alone
  have unchanged {conn'} (related' : SameStream parse conn' messages) :
      SameStreams parse (Function.update s.streams c (some conn')) clients := by
    rw [← kept]
    exact same.update related'
  cases effect with
  | pending active valid active' ending bytes =>
      exact ⟨[], _, [], rfl,
        ⟨clients, rfl, unchanged (related.pending active' valid ending bytes active)⟩, rfl⟩
  | done done =>
      have returns := handleIo_returns running hclient (.inl (related.rxDone.trans done))
      exact ⟨_, _, [],
        run_handleIo hash { s.withStream c conn with tasks := s.tasks.erase c } clients rfl returns,
        ⟨clients, rfl, unchanged related⟩, rfl⟩
  | @ended conn' active valid active' ending bytes spent =>
      -- the stand-in has nothing left and has closed its end
      have nothing : messages.inbox = [] ∧ messages.closed = true := by
        rcases spent with ⟨closed, none_left⟩ | stuck
        · exact ⟨(related.inbox active).trans none_left, related.ended closed⟩
        · have exhausted : Exhausted parse ε conn.bytes := by
            intro e more
            rw [stuck, ← List.append_nil conn.bytes, stuck]
          refine ⟨(related.inbox active).trans ?_, related.exhausted active exhausted⟩
          rw [← List.append_nil conn.bytes, stuck]
      have returns := handleIo_returns running hclient (.inr nothing)
      exact ⟨_, _, [],
        run_handleIo hash { s.withStream c conn' with tasks := s.tasks.erase c } clients rfl
          returns,
        ⟨clients, rfl, unchanged (related.pending active' valid ending bytes active)⟩, rfl⟩
  | @item conn' item active valid done ending front =>
      -- the item is the first message of the stand-in
      obtain ⟨rest, next, related'⟩ := related.item active valid done ending front
      have forwards := handleIo_forwards running hclient (related.rxDone.trans active) next conn'
      refine ⟨_, _, [], run_handleIo hash ((s.withStream c conn').handleItem c item).1 _
        (Sockets.handleItem_loop _ c item) forwards, ⟨_, rfl, ?_⟩, ?_⟩
      · rw [Sockets.handleItem_streams]
        exact same.update related'
      · rcases item with e | (path | _) <;> rfl
  | @failure conn' e active valid done ending ended last =>
      obtain ⟨next, related'⟩ := related.failure active valid done ending ended last
      have forwards := handleIo_forwards running hclient (related.rxDone.trans active) next conn'
      exact ⟨_, _, [],
        run_handleIo hash ((s.withStream c conn').handleItem c (.error (.io (.reader e)))).1 _ rfl
          forwards, ⟨_, rfl, same.update related'⟩, rfl⟩

/-- **The steps of `run` do not look at the clients.** -/
theorem step_withClients (s : Sockets P K C H ε π)
    (clients : ConnId → Option (Connection P (ReceiveError ε π)))
    (input : Input P C H (ReceiveError ε π)) (ofRun : input.ofRun = true) :
    step hash (s.withClients clients) input =
      (step hash (s.withClients fun _ => none) input).map fun next =>
        ((s.after next.1).withClients clients, next.2) := by
  cases input with
  | connect c => cases ofRun
  | send c item => cases ofRun
  | close c => cases ofRun
  | handleIo c => cases ofRun
  | accept =>
      rcases waiting : s.listener with _ | ⟨c, rest⟩ <;> cases selecting : s.loop.selecting <;>
        simp [step, Net.accept, Sockets.withClients, Sockets.after, waiting, selecting]
  | recv =>
      rcases queued : s.channel with _ | ⟨message, rest⟩ <;> cases selecting : s.loop.selecting <;>
        simp [step, Sockets.withClients, Sockets.after, queued, selecting]
  | closureDone i result =>
      cases selecting : s.loop.selecting <;>
        simp [step, Sockets.withClients, Sockets.after, selecting, Function.comp_def]
  | pathDone i result =>
      cases selecting : s.loop.selecting <;>
        simp [step, Sockets.withClients, Sockets.after, selecting, Function.comp_def]
  | leaveLoop ok =>
      cases selecting : s.loop.selecting <;> by_cases main : s.loop.phase = .mainLoop <;>
        simp [step, Sockets.withClients, Sockets.after, selecting, main]
  | drainDone i result ok =>
      by_cases draining : s.loop.phase = .draining <;>
        simp [step, Sockets.withClients, Sockets.after, draining, Function.comp_def]
  | finish ok =>
      by_cases draining : s.loop.phase = .draining <;>
        by_cases idle : s.loop.handleStorePaths = [] <;>
        cases requested : s.loop.stopProgressWriter <;>
        simp [step, Sockets.withClients, Sockets.after, draining, idle, requested]

/-! ## The simulation -/

/-- **The daemon on its sockets does nothing that the one on messages cannot do.** -/
theorem sockets_simulated :
    Simulation (socketMachine parse hash) (machine hash) SocketObs.seen Obs.seen
      (Related (P := P) (K := K) (C := C) (H := H) (ε := ε) parse) where
  step := by
    rintro s _ i s' out ⟨clients, rfl, same⟩ hstep
    have valid : ∀ c conn, s.streams c = some conn → conn.rx.Valid := by
      intro c conn found
      obtain ⟨messages, -, related⟩ := same.found found
      exact related.valid
    cases socketStep_effect valid hstep with
    | connected c fresh =>
        have fresh' : (s.withClients clients).net.clients c = none := same.fresh fresh
        refine ⟨[.connect c], _, [.connected c], ?_, ⟨_, rfl, same.update sameStream_new⟩, rfl⟩
        rw [Machine.run_cons_eq_some]
        refine ⟨_, [.connected c], [], ?_, rfl, rfl⟩
        show (Net.connect _ c).map _ = _
        rw [Net.connect, fresh']
        rfl
    | wrote c conn bytes found opened =>
        obtain ⟨messages, hclient, related⟩ := same.found found
        obtain ⟨js, out', messages', hrun, related', unseen⟩ :=
          exists_run_grow hash (s := s) hclient related opened bytes none
        rw [← opened] at related'
        exact ⟨js, _, out', hrun, ⟨_, rfl, same.update related'⟩, unseen⟩
    | closed c conn ending found opened =>
        obtain ⟨messages, hclient, related⟩ := same.found found
        obtain ⟨js, out', messages', hrun, related', unseen⟩ :=
          exists_run_grow hash (s := s) hclient related opened [] (some ending)
        rw [List.append_nil] at related'
        exact ⟨js, _, out', hrun, ⟨_, rfl, same.update related'⟩, unseen⟩
    | polled c conn running found effect => exact pollIo_matched hash same running found effect
    | daemon input t outputs ofRun done =>
        refine ⟨[input], (s.after t).withClients clients, outputs, ?_, ⟨clients, rfl, same⟩, ?_⟩
        · rw [Machine.run_cons_eq_some]
          refine ⟨_, outputs, [], ?_, rfl, (List.append_nil _).symm⟩
          show step hash _ input = _
          rw [step_withClients hash s clients input ofRun, done]
          rfl
        · rw [List.filterMap_map]
          rfl

end Steps

/-! ## Runs -/

section Runs

variable {parse : String → Except π P} [DecidableEq K] (hash : P → K)

omit [DecidableEq K] in
theorem related_init : Related parse (Sockets.init : Sockets P K C H ε π) init :=
  ⟨fun _ => none, rfl, fun _ => .none⟩

/-- **The daemon on its sockets refines the daemon on messages.**  Whatever the pieces
in which the clients write and those in which the sockets are read, there is a run
with messages that does the same and ends in the same state.

A client's `write` of some bytes is matched by the sends of the messages that these bytes
complete, which may be none or several; every other step is matched by one step or by none.
So all that is proved of runs with messages holds of the daemon with its sockets. -/
theorem sockets_refine_messages {is : List (SocketInput P C H ε π)} {s : Sockets P K C H ε π}
    {trace : List (SocketObs P C H ε π)}
    (hrun : (socketMachine parse hash).run Sockets.init is = some (s, trace)) :
    ∃ js t trace', (machine hash).run init js = some (t, trace') ∧
      t.loop = s.loop ∧ t.net.listener = s.listener ∧ t.net.tasks = s.tasks ∧
      t.net.channel = s.channel ∧ SameStreams parse s.streams t.net.clients ∧
      trace'.filterMap Obs.seen = trace.filterMap SocketObs.seen := by
  obtain ⟨js, t, trace', hrun', ⟨clients, rfl, same⟩, seen⟩ :=
    (sockets_simulated hash).run related_init hrun
  exact ⟨js, _, trace', hrun', rfl, rfl, rfl, rfl, same, seen⟩

end Runs

/-- What a read of the first poll finds is taken, and the next one waits. -/
def firstRead (k : ℕ) : ReadChoice :=
  if k = 0 then .upTo 7 else .pending

/-- The line of a path arrives in two pieces, the second one with a stop. -/
def splitLineRun : List (SocketInput String Unit Unit Unit Unit) :=
  [.connect 0, .write 0 [97], .daemon .accept, .pollIo 0 firstRead,
    .write 0 [pathSeparator, stopSentinel], .pollIo 0 firstRead, .pollIo 0 firstRead,
    .daemon .recv, .daemon .recv, .daemon (.closureDone 0 (.ok [])), .daemon (.leaveLoop true),
    .daemon (.finish true)]

/-- Any line is a store path. -/
def anyLine (s : String) : Except Unit String :=
  .ok s

/-- The line is pushed once, although its bytes come in two pieces. -/
theorem splitLineRun_runs :
    ∃ (s : Sockets String String Unit Unit Unit Unit) (trace : List (SocketObs _ _ _ _ _)),
      (socketMachine anyLine id).run Sockets.init splitLineRun = some (s, trace) ∧
        (ledger (trace.filterMap SocketObs.seen)).pushes = ["a"] := by
  have pushes : (((socketMachine (K := String) anyLine id).run Sockets.init splitLineRun).map
      fun next => (ledger (next.2.filterMap SocketObs.seen)).pushes) = some ["a"] := by
    decide +kernel
  obtain ⟨⟨s, trace⟩, hrun, read⟩ := Option.map_eq_some_iff.mp pushes
  exact ⟨s, trace, hrun, read⟩

/-- The stand-in sends its message when the second piece is written. -/
theorem sockets_refine_messages_split_line :
    ∃ (s : Sockets String String Unit Unit Unit Unit) (trace : List (SocketObs _ _ _ _ _)),
      (socketMachine anyLine id).run Sockets.init splitLineRun = some (s, trace) ∧
        ∃ js t trace', (machine id).run init js = some (t, trace') ∧
          t.loop = s.loop ∧ t.net.listener = s.listener ∧ t.net.tasks = s.tasks ∧
          t.net.channel = s.channel ∧ SameStreams anyLine s.streams t.net.clients ∧
          trace'.filterMap Obs.seen = trace.filterMap SocketObs.seen := by
  obtain ⟨s, trace, hrun, -⟩ := splitLineRun_runs
  exact ⟨s, trace, hrun, sockets_refine_messages id hrun⟩

end EventLoop

end CacheAction
