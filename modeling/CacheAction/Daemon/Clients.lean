import CacheAction.Daemon.Store
import CacheAction.EventLoop.PushClients

/-!
# From the clients to the cache

The whole way of a store path: a client writes its line, in pieces and perhaps not to the
end; the receiver of its connection decodes it; `run` computes the closure and starts a
task for each path; the task uploads the NAR and publishes the NARInfo.
`published_for_client` goes this way back: whatever is published is in the closure of a path
whose line has arrived to its last byte.

Each of the hypotheses is about one end.  The store is `FromNix`.  The clients write what
`push` and `stop` write, which is what the encodings of accepted paths are, up to any point;
that every path fits a line is not a consequence, since the parser of store paths accepts
longer ones and such with a newline (`session_roundTrip_iff`).  Nothing is assumed of the
servers: what they answer decides whether something is published, and not what.
-/

namespace CacheAction

namespace Daemon

open Sub60 HandleStorePath EventLoop

variable {B K C ε ϱ σ δ E : Type} [DecidableEq K] {codec : BasenameCodec B ϱ}
  (hash : StorePath B → K) (fmt : HandleFormats (StorePath B) σ δ E) (cache : Sub60Cache)
  (upstreamCaches : List Url) (nix : Nix (StorePath B) C E)

/-- **Nothing is published that no client has asked for**, and what is published is what
the store has.  The clients write store paths and perhaps a stop, each as far as it gets.

This joins the two ends of the program.  From the publication back to a push that the event
loop has received it is the daemon's invariant (`closures_of_run`); from the push back to
the client's bytes it is the wire protocol on the sockets (`pushes_arrived`), for which the
paths have to fit a line. -/
theorem published_for_client (lawful : codec.Lawful)
    {is : List (DaemonInput (StorePath B) C ε (StorePathError ϱ) E)}
    {d : Daemon (StorePath B) K C ε (StorePathError ϱ) σ δ E}
    {trace : List (DaemonObs (StorePath B) C ε (StorePathError ϱ) δ E)}
    (follows : (machine (StorePath.fromStr codec) hash fmt cache upstreamCaches).Follows
      (FromNix hash nix) init [] is)
    (hrun : (machine (StorePath.fromStr codec) hash fmt cache upstreamCaches).run init is =
      some (d, trace))
    {paths : ConnId → List (StorePath B)} {stop : ConnId → Bool}
    (accepted : ∀ c, ∀ path ∈ paths c, path.Accepted codec)
    (fits : ∀ c, ∀ path ∈ paths c, LineFits codec path)
    (sent : ∀ c, (history c (events trace)).written <+:
      encodeAll codec (session (paths c) (stop c)))
    {path : StorePath B} {narinfo : NarInfo (StorePath B) δ} {call : Call}
    (published : .task path (.publish narinfo call) ∈ trace) :
    Describes nix fmt path narinfo ∧
      (∃ initial, cache.request fmt.toFormats call =
        narinfoRequest fmt cache path initial narinfo) ∧
      ∃ c pushed closure, .pushStorePath pushed ∈
          arrived codec (history c (events trace)).written.length (session (paths c) (stop c)) ∧
        nix.storeClosure pushed = .ok closure ∧ path ∈ closure := by
  obtain ⟨staffed, known⟩ := closures_of_run follows hrun
  have inHistory := mem_taskHistory.mpr published
  obtain ⟨pushed, received, closure, computed, inside⟩ :=
    known.pushed staffed (staffed.started inHistory)
  obtain ⟨is, ran⟩ := staffed.ran
  obtain ⟨c, line⟩ := pushes_arrived hash lawful ran accepted fits sent received
  exact ⟨staffed.described inHistory, staffed.sentRequest published, c, pushed, closure, line,
    computed, inside⟩

/-! ## A push of one path -/

/-- The formats of the examples, for store paths. -/
def helloFormats : HandleFormats (StorePath NixBasename) (List UInt8) String Unit where
  toFormats := exampleFormats.toFormats
  narinfoFilename path := String.ofList (path.basename.text.toList.take 32) ++ ".narinfo"
  storeBasename path := path.basename.text
  printNarInfo narinfo :=
    "StorePath: " ++ narinfo.storePath.display nixBasenameCodec ++ "\nNarHash: sha256:" ++
      narinfo.narHash ++ "\nNarSize: " ++ toString narinfo.narSize.val ++ "\n"
  sha256 := exampleFormats.sha256

/-- A store with one path. -/
def helloStore : Nix (StorePath NixBasename) Unit Unit where
  storeClosure path := .ok [path]
  nar _ := some [1, 2, 3]
  pathInfos _ := .ok { references := .ok [], deriver := .ok none, signatures := .ok [],
                       contentAddress := .ok none }

/-- The line arrives in two pieces; the client is cut off in the next line. -/
def helloRun :
    List (DaemonInput (StorePath NixBasename) Unit Unit (StorePathError Unit) Unit) :=
  let bytes := encodeAll nixBasenameCodec (session [helloPath, helloPath] false)
  [.event (.connect 0), .event (.write 0 (bytes.take 20)), .event (.daemon .accept),
    .event (.pollIo 0 firstRead), .event (.write 0 ((bytes.drop 20).take 40)),
    .event (.pollIo 0 fun _ => .upTo 50), .event (.close 0 .eof), .event (.daemon .recv),
    .event (.daemon (.closureDone 0 (.ok [helloPath])))] ++ pushRun.map (.task 0)

/-- The daemon of this example. -/
abbrev helloDaemon :
    Machine (Daemon (StorePath NixBasename) (StorePath NixBasename) Unit Unit
        (StorePathError Unit) (List UInt8) String Unit)
      (DaemonInput (StorePath NixBasename) Unit Unit (StorePathError Unit) Unit)
      (DaemonObs (StorePath NixBasename) Unit Unit (StorePathError Unit) String Unit) :=
  machine (StorePath.fromStr nixBasenameCodec) id helloFormats exampleCache [nixosCache]

theorem helloRun_fromNix : helloDaemon.Follows (FromNix id helloStore) init [] helloRun :=
  helloDaemon.follows_of_follows? (by decide +kernel)

/-- A connection that nothing has happened to. -/
theorem written_of_other {H : Type} {trace : List (SocketObs P C H ε π)} {c c' : ConnId}
    (only : trace.all (fun o => o.client == some c || o.client == none) = true)
    (other : c' ≠ c) : (history c' trace).written = [] := by
  have silent : history c' ([] ++ trace) = .new := by
    refine history_append_of_other fun o member own => ?_
    have named := List.all_eq_true.mp only o member
    rw [own] at named
    simp [other] at named
  rw [List.nil_append] at silent
  rw [silent]
  rfl

/-- One client, which is cut off after 60 bytes, and a publication all the same. -/
theorem helloRun_runs :
    ∃ d trace narinfo call, helloDaemon.run init helloRun = some (d, trace) ∧
      .task helloPath (.publish narinfo call) ∈ trace ∧
      (history 0 (events trace)).written =
        (encodeAll nixBasenameCodec (session [helloPath, helloPath] false)).take 60 ∧
      ∀ c, c ≠ 0 → (history c (events trace)).written = [] := by
  have read : (helloDaemon.run init helloRun).map (fun next =>
      ((handleLog (taskTrace id next.2 helloPath)).publications.length,
        (history 0 (events next.2)).written,
        (events next.2).all fun o => o.client == some 0 || o.client == none)) =
      some (1, (encodeAll nixBasenameCodec (session [helloPath, helloPath] false)).take 60,
        true) := by
    decide +kernel
  obtain ⟨⟨d, trace⟩, hrun, values⟩ := Option.map_eq_some_iff.mp read
  simp only [Prod.mk.injEq] at values
  obtain ⟨one, written, only⟩ := values
  obtain ⟨⟨narinfo, call⟩, entry⟩ := List.exists_mem_of_length_pos
    (l := (handleLog (taskTrace id trace helloPath)).publications) (by omega)
  obtain ⟨o, member, publishes⟩ := List.mem_filterMap.mp entry
  split at publishes <;> cases publishes
  obtain ⟨path, rfl, inHistory⟩ := (mem_own id).mp member
  exact ⟨d, trace, narinfo, call, hrun, mem_taskHistory.mp inHistory, written,
    fun c other => written_of_other only other⟩

/-- The published path is the one whose line has arrived. -/
theorem published_for_client_hello :
    ∃ (d : Daemon (StorePath NixBasename) (StorePath NixBasename) Unit Unit _ _ _ _)
      (trace : List (DaemonObs _ _ _ _ _ _)) (narinfo : NarInfo (StorePath NixBasename) String)
      (call : Call), helloDaemon.run init helloRun = some (d, trace) ∧
        Describes helloStore helloFormats helloPath narinfo ∧
        (∃ initial, exampleCache.request helloFormats.toFormats call =
          narinfoRequest helloFormats exampleCache helloPath initial narinfo) ∧
        ∃ c pushed closure, .pushStorePath pushed ∈
            arrived nixBasenameCodec (history c (events trace)).written.length
              (session (if c = 0 then [helloPath, helloPath] else []) false) ∧
          helloStore.storeClosure pushed = .ok closure ∧ helloPath ∈ closure := by
  obtain ⟨d, trace, narinfo, call, hrun, published, written, others⟩ := helloRun_runs
  have paths (c : ConnId) {path} (member : path ∈ if c = 0 then [helloPath, helloPath] else []) :
      path = helloPath := by
    split at member <;> simp_all
  refine ⟨d, trace, narinfo, call, hrun, published_for_client id _ _ _ _ nixBasenameCodec_lawful
    helloRun_fromNix hrun (fun c path member => ?_) (fun c path member => ?_) (fun c => ?_)
    published⟩
  · rw [paths c member]
    exact accepted_helloPath
  · rw [paths c member]
    decide +kernel
  · by_cases first : c = 0
    · subst first
      rw [written]
      exact List.take_prefix _ _
    · rw [others c first]
      exact List.nil_prefix

end Daemon

end CacheAction
