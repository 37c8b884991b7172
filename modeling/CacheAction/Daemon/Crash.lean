import CacheAction.Daemon.Publications

/-!
# When the daemon comes down

A task panics only where it probes the upstream caches, on a URL that cannot be a
base, and the panic goes on in `run`, which waits for the task.

* `only_opaque_caches_crash`: such a URL is the only cause.  A daemon that has come
  down has reported nothing and takes no further step: a client that has asked it to
  stop gets no report.
* `opaque_cache_disarms`: with such a URL the daemon pushes nothing in its whole life.
  The paths that it finds in its own cache are skipped, any other path that it looks at
  can bring it down.

The panic is the one of `path_segments_mut().expect(..)`.  It takes two steps to bring the
daemon down, because a task that panics does nothing to the others by itself: `tokio` catches
the panic, and the join handle resumes it in whoever waits for the task.  With `panic =
"abort"` in its profile the released binary ends at the first of the two steps; there is no
report in either case, and nothing is sent in between that changes anything.

While `run` leaves its main loop, in the one step in which it tells the stop client how many
paths are left, it does not wait for its tasks.  A task that panics then is waited for in the
drain loop right after it.
-/

namespace CacheAction

open Sub60 HandleStorePath EventLoop UpstreamCaches

namespace HandleStorePath

variable {P σ δ E : Type} {fmt : HandleFormats P σ δ E} {cache : Sub60Cache} {path : P}
  {upstreamCaches : List Url}

section Steps

variable {check check' : Check E} {handle handle' : Handle P σ δ E} {panic : Panic}

/-- The check panics only where the URLs are built. -/
theorem probe_of_panicked {narinfoFilename : String} {input : CheckInput E} {out : List CheckObs}
    (h : Check.step fmt.toFormats cache narinfoFilename upstreamCaches check input =
      some (.panicked panic, out)) :
    pushNarinfo fmt.encodeSegment narinfoFilename upstreamCaches = .error panic := by
  have probed : ∀ resume : Upstream → Check E, (∀ upstream, resume upstream ≠ .panicked panic) →
      (Check.probe fmt.toFormats narinfoFilename upstreamCaches resume).1 = .panicked panic →
      pushNarinfo fmt.encodeSegment narinfoFilename upstreamCaches = .error panic := by
    intro resume safe panicked
    unfold Check.probe at panicked
    split at panicked
    · rename_i failed
      cases panicked
      exact failed
    · exact absurd panicked (safe _)
  have right : ∀ upstream, (Check.selectRight upstream : Check E) ≠ .panicked panic := by
    intro upstream
    unfold Check.selectRight
    split <;> simp
  have left : ∀ failure upstream, (Check.afterLeft failure upstream : Check E) ≠
      .panicked panic := by
    intro failure upstream
    unfold Check.afterLeft
    split
    · split
      · simp
      · split <;> simp
    · simp
  generalize next : (Check.panicked panic : Check E) = check' at h
  cases Check.step_spec _ _ _ _ h with
  | ownFirst =>
      unfold Check.selectLeft at next
      split at next <;> cases next
  | probeSelecting => exact probed _ right next.symm
  | upstreamSelecting => exact absurd next.symm (right _)
  | probeLeft => exact probed _ (left _) next.symm
  | upstreamLeft => exact absurd next.symm (left _ _)
  | ownLast => cases next

/-- The join of the halves panics in no case. -/
theorem join_running (halves : Streaming σ E) :
    (Handle.join fmt halves : Handle P σ δ E) ≠ .panicked panic := by
  unfold Handle.join Handle.finish
  split
  · simp
  · split
    · split <;> simp
    · simp
  · simp

/-- Nor does a step of the upload. -/
theorem uploadStep_running {halves : Streaming σ E} {input : UploadInput E}
    {out : List (HandleObs P δ)}
    (h : Handle.uploadStep fmt cache halves input = some (handle', out)) :
    handle' ≠ .panicked panic := by
  obtain ⟨next, -, hnext⟩ := Option.map_eq_some_iff.mp h
  obtain ⟨rfl, -⟩ := Prod.ext_iff.mp hnext
  exact join_running _

/-- A task panics only where it probes the upstream caches. -/
theorem probe_of_task_panicked {input : HandleInput E} {out : List (HandleObs P δ)}
    (h : Handle.step fmt cache path upstreamCaches handle input = some (.panicked panic, out)) :
    pushNarinfo fmt.encodeSegment (fmt.narinfoFilename path) upstreamCaches = .error panic := by
  generalize next : (Handle.panicked panic : Handle P σ δ E) = handle' at h
  cases Handle.step_spec _ _ _ _ h with
  | start => cases next
  | check done =>
      unfold Handle.afterCheck at next
      split at next <;> cases next
      exact probe_of_panicked done
  | initiated =>
      unfold Handle.receiveState at next
      split at next <;> cases next
  | write writing =>
      unfold Handle.write at next
      split at next <;> cases next
  | writeFails writing => cases next
  | @shutdown halves result writing =>
      rcases result with e | ⟨⟩
      · cases next
      · exact absurd next.symm (join_running _)
  | read done =>
      unfold Handle.read at done
      split at done <;> exact absurd next.symm (uploadStep_running done)
  | readFails done => exact absurd next.symm (uploadStep_running done)
  | upload other done => exact absurd next.symm (uploadStep_running done)
  | pathInfos =>
      unfold Handle.receiveInfos at next
      split at next <;> cases next
  | narinfoSent =>
      unfold Handle.receivePublication at next
      split at next <;> cases next

end Steps

variable (fmt path) in
/-- The probe fails when some URL cannot be a base. -/
theorem probe_of_opaque (isOpaque : ∃ url ∈ upstreamCaches, ¬ url.canBeABase) :
    ∃ panic, pushNarinfo fmt.encodeSegment (fmt.narinfoFilename path) upstreamCaches =
      .error panic := by
  obtain ⟨url, member, cannot⟩ := isOpaque
  rcases pushed : pushNarinfo fmt.encodeSegment (fmt.narinfoFilename path) upstreamCaches with
    panic | probed
  · exact ⟨panic, rfl⟩
  · exact absurd ((pushNarinfo_isOk _ _ _).mp ⟨probed, pushed⟩ url member) cannot

/-- A task that has panicked has been given a URL that cannot be a base. -/
theorem opaque_of_panicked {is : List (HandleInput E)} {trace : List (HandleObs P δ)}
    {panic : Panic} (hrun : (handleMachine fmt cache path upstreamCaches).run .called is =
      some (.panicked panic, trace)) :
    ∃ url ∈ upstreamCaches, ¬ url.canBeABase := by
  have cause := @Machine.run_invariant _ _ _ (handleMachine fmt cache path upstreamCaches)
    (fun handle _ => handle = .panicked panic →
      pushNarinfo fmt.encodeSegment (fmt.narinfoFilename path) upstreamCaches = .error panic)
    (fun s trace i s' out _ hstep panicked => by
      subst panicked
      exact probe_of_task_panicked hstep)
    _ _ _ [] _ (by rintro ⟨⟩) hrun rfl
  by_contra safe
  push Not at safe
  obtain ⟨probed, pushed⟩ :=
    (pushNarinfo_isOk fmt.encodeSegment (fmt.narinfoFilename path) upstreamCaches).mpr safe
  rw [cause] at pushed
  cases pushed

/-! ## A cache that cannot be asked -/

/-- Where a task can be when the upstream caches cannot be asked: before the probe, or at an
end.  The own cache may answer before the probe or after it, since `select` polls the two in
an order of its own choice; if it has the path, the probe is never made. -/
def Handle.BeforeProbe : Handle P σ δ E → Prop
  | .called => True
  | .checking (.selecting .unpolled) => True
  | .checking (.left _ .unpolled) => True
  | .returned (.ok none) => True
  | .panicked _ => True
  | _ => False

section Disarmed

variable {handle handle' : Handle P σ δ E}

/-- A task does not get beyond the probe, and has changed nothing before. -/
theorem beforeProbe_step {panic : Panic}
    (failed : pushNarinfo fmt.encodeSegment (fmt.narinfoFilename path) upstreamCaches =
      .error panic) {input : HandleInput E} {out : List (HandleObs P δ)}
    (before : handle.BeforeProbe)
    (h : Handle.step fmt cache path upstreamCaches handle input = some (handle', out)) :
    handle'.BeforeProbe ∧ ∀ o ∈ out, o.mutates = false := by
  have probed : ∀ resume : Upstream → Check E,
      Check.probe fmt.toFormats (fmt.narinfoFilename path) upstreamCaches resume =
        (.panicked panic, []) := by
    intro resume
    rw [Check.probe, failed]
  have answered : ∀ answer : Except (CacheRequestError E) Bool,
      (Handle.afterCheck fmt path (.selectLeft .unpolled answer)).1.BeforeProbe ∧
        ∀ o ∈ (Handle.afterCheck fmt path (.selectLeft .unpolled answer)).2,
          o.mutates = false := by
    intro answer
    rcases answer with e | (_ | _) <;>
      simp [Check.selectLeft, Handle.afterCheck, Handle.BeforeProbe, HandleObs.mutates]
  have crashed : (Handle.afterCheck fmt path (.panicked panic)).1.BeforeProbe ∧
      ∀ o ∈ (Handle.afterCheck fmt path (.panicked panic)).2, o.mutates = false :=
    ⟨trivial, by simp [Handle.afterCheck]⟩
  cases Handle.step_spec _ _ _ _ h with
  | start =>
      exact ⟨trivial, by simp [Check.start, HandleObs.mutates, CheckObs.readOnly, Call.readOnly]⟩
  | check done =>
      cases Check.step_spec _ _ _ _ done with
      | @ownFirst upstream sent =>
          cases upstream with
          | unpolled => exact answered _
          | _ => exact before.elim
      | probeSelecting =>
          rw [probed]
          exact crashed
      | upstreamSelecting => exact before.elim
      | probeLeft =>
          rw [probed]
          exact crashed
      | upstreamLeft => exact before.elim
      | ownLast => exact before.elim
  | _ => exact before.elim

/-- What a task has done without the upstream caches. -/
theorem beforeProbe_of_run (isOpaque : ∃ url ∈ upstreamCaches, ¬ url.canBeABase)
    {is : List (HandleInput E)} {trace : List (HandleObs P δ)}
    (hrun : (handleMachine fmt cache path upstreamCaches).run .called is =
      some (handle, trace)) :
    handle.BeforeProbe ∧ ∀ o ∈ trace, o.mutates = false := by
  obtain ⟨panic, failed⟩ := probe_of_opaque fmt path isOpaque
  have start : (.called : Handle P σ δ E).BeforeProbe ∧
      ∀ o ∈ ([] : List (HandleObs P δ)), o.mutates = false := ⟨trivial, by simp⟩
  refine @Machine.run_invariant _ _ _ (handleMachine fmt cache path upstreamCaches)
    (fun handle trace => handle.BeforeProbe ∧ ∀ o ∈ trace, o.mutates = false)
    ?_ _ _ _ [] _ start hrun
  rintro s trace i s' out ⟨before, unchanged⟩ hstep
  obtain ⟨before', silent⟩ := beforeProbe_step failed before hstep
  exact ⟨before', List.forall_mem_append.mpr ⟨unchanged, silent⟩⟩

end Disarmed

end HandleStorePath

namespace Daemon

variable {P K C ε π σ δ E : Type} [DecidableEq K] (parse : String → Except π P) (hash : P → K)
  (fmt : HandleFormats P σ δ E) (cache : Sub60Cache) (upstreamCaches : List Url)

/-! ## What brings the daemon down -/

/-- **Only an upstream cache that cannot be a base brings the daemon down**, which then
has reported nothing and takes no further step.

The daemon comes down with the panic of a task that it waits for, and the task's own run
shows where the panic comes from.  A report is out of the question because the loop that
waits for the tasks has not been left. -/
theorem only_opaque_caches_crash {is : List (DaemonInput P C ε π E)}
    {d : Daemon P K C ε π σ δ E} {trace : List (DaemonObs P C ε π δ E)} {panic : Panic}
    (hrun : (machine parse hash fmt cache upstreamCaches).run init is = some (d, trace))
    (crashed : d.crashed = some panic) :
    (∃ url ∈ upstreamCaches, ¬ url.canBeABase) ∧ (eventLedger trace).reports = [] ∧
      ∀ input, step parse hash fmt cache upstreamCaches d input = none := by
  have staffed := run_staffed hrun
  obtain ⟨waiting, path, member⟩ := staffed.crash panic crashed
  refine ⟨?_, ?_, fun input => ?_⟩
  · obtain ⟨is, ran, -⟩ := staffed.tasks.ran _ (List.mem_append_left _ member)
    exact opaque_of_panicked ran
  · -- a report is sent after the last task has been waited for
    refine List.eq_nil_iff_forall_not_mem.mpr fun _ reported => ?_
    obtain ⟨finished, -⟩ := staffed.books.reported _ reported
    simp [joining, Loop.selecting, finished] at waiting
  · unfold step
    rw [if_pos (by rw [crashed]; rfl)]

/-- A URL that the arguments may give and that cannot be a base. -/
def mailCache : Url where
  origin := "mailto:"
  path := .opaquePath "x"
  suffix := ""

theorem mailCache_isOpaque : ∃ url ∈ [mailCache], ¬ url.canBeABase := by
  refine ⟨mailCache, List.mem_singleton_self _, ?_⟩
  rintro ⟨path, hierarchical⟩
  cases hierarchical

/-- The first path that is pushed brings the daemon down. -/
def mailRun : List (DaemonInput (String × String) Unit Unit Unit Unit) :=
  [.event (.connect 0), .event (.write 0 exampleLine), .event (.daemon .accept),
    .event (.pollIo 0 fun _ => .upTo 50), .event (.daemon .recv),
    .event (.daemon (.closureDone 0 (.ok [examplePath]))), .task 0 .start, .task 0 (.check .probe),
    .join 0 true]

/-- The daemon with this cache. -/
abbrev mailDaemon :
    Machine (Daemon (String × String) String Unit Unit Unit (List UInt8) String Unit)
      (DaemonInput (String × String) Unit Unit Unit Unit)
      (DaemonObs (String × String) Unit Unit Unit String Unit) :=
  machine parsePair Prod.fst exampleFormats exampleCache [mailCache]

/-- A task that builds the URL of a narinfo below `mailto:x`. -/
theorem mailRun_runs :
    ∃ d trace, mailDaemon.run init mailRun = some (d, trace) ∧
      d.crashed = some { message := "upstream cache URL can be a base" } := by
  have read : (mailDaemon.run init mailRun).map (fun next => next.1.crashed) =
      some (some { message := "upstream cache URL can be a base" }) := by
    decide +kernel
  obtain ⟨⟨d, trace⟩, hrun, crashed⟩ := Option.map_eq_some_iff.mp read
  exact ⟨d, trace, hrun, crashed⟩

/-- The cause is `mailto:x`, and the daemon takes no further step. -/
theorem only_opaque_caches_crash_mail :
    ∃ d trace, mailDaemon.run init mailRun = some (d, trace) ∧
      (∃ url ∈ [mailCache], ¬ url.canBeABase) ∧ (eventLedger trace).reports = [] ∧
        ∀ input,
          step parsePair Prod.fst exampleFormats exampleCache [mailCache] d input = none := by
  obtain ⟨d, trace, hrun, crashed⟩ := mailRun_runs
  exact ⟨d, trace, hrun, only_opaque_caches_crash _ _ _ _ _ hrun crashed⟩

/-- The daemon without an answer from its upstream caches.  It handles what need not be pushed
and nothing else. -/
structure Disarmed (d : Daemon P K C ε π σ δ E) (trace : List (DaemonObs P C ε π δ E)) :
    Prop where
  /-- Nothing is uploaded or published: whatever a task sends only reads, -/
  readOnly : ∀ path o, .task path o ∈ trace → o.mutates = false ∧
    ∀ request, o.request? fmt cache = some request → request.readOnly = true
  /-- the results are those of paths in its own cache, -/
  skipped : ∀ path result, (path, result) ∈ (eventLedger trace).handled → result = .ok none
  /-- and a path that is looked at can bring the daemon down, in two steps. -/
  fragile : ∀ i path check, d.tasks[i]? = some (path, .checking check) → d.crashed = none →
    joining d.sockets.loop = true →
      ∃ d' out, (machine parse hash fmt cache upstreamCaches).run d
        [.task i (.check .probe), .join i true] = some (d', out) ∧ d'.crashed.isSome = true

section Fragile

variable {parse hash fmt cache upstreamCaches} {d : Daemon P K C ε π σ δ E}

/-- A probe that panics, in a task that is waited for. -/
theorem crashes_of_probe {i : ℕ} {path : P} {check : Check E} {panic : Panic}
    (failed : pushNarinfo fmt.encodeSegment (fmt.narinfoFilename path) upstreamCaches =
      .error panic) (found : d.tasks[i]? = some (path, .checking check))
    (before : (Handle.checking check : Handle P σ δ E).BeforeProbe)
    (running : d.crashed = none) (waiting : joining d.sockets.loop = true) :
    ∃ d' out, (machine parse hash fmt cache upstreamCaches).run d
      [.task i (.check .probe), .join i true] = some (d', out) ∧ d'.crashed.isSome = true := by
  have panics : Handle.step fmt cache path upstreamCaches (.checking check) (.check .probe) =
      some (.panicked panic, []) := by
    rcases check with (_ | _ | _) | ⟨failure, (_ | _ | _)⟩ | _ | _ | _ <;>
      first
        | exact before.elim
        | simp [Handle.step, Check.step, Check.probe, failed, Handle.afterCheck]
  obtain ⟨valid, -⟩ := List.getElem?_eq_some_iff.mp found
  have probed : step parse hash fmt cache upstreamCaches d (.task i (.check .probe)) =
      some ({ d with tasks := d.tasks.set i (path, .panicked panic) }, []) := by
    simp [step, running, found, panics]
  have joined : step parse hash fmt cache upstreamCaches
      { d with tasks := d.tasks.set i (path, .panicked panic) } (.join i true) =
        some ({ d with tasks := d.tasks.set i (path, .panicked panic), crashed := some panic },
          [.crashed panic]) := by
    simp [step, running, waiting, List.getElem?_set_self valid]
  refine ⟨{ d with tasks := d.tasks.set i (path, .panicked panic), crashed := some panic },
    [.crashed panic], ?_, rfl⟩
  rw [Machine.run_cons_eq_some]
  refine ⟨_, _, [.crashed panic], probed, ?_, rfl⟩
  rw [Machine.run_cons_eq_some]
  exact ⟨_, _, [], joined, rfl, rfl⟩

end Fragile

/-- **With an upstream cache that cannot be a base the daemon pushes nothing**, in any
run.

Every task asks the sub60 cache first and builds the URLs of the upstream caches after
that, before it sends anything that changes the cache.  A task that gets as far as the URLs
panics.  One that hears before that that the cache has the path is skipped, and no other
task returns. -/
theorem opaque_cache_disarms {is : List (DaemonInput P C ε π E)}
    {d : Daemon P K C ε π σ δ E} {trace : List (DaemonObs P C ε π δ E)}
    (hrun : (machine parse hash fmt cache upstreamCaches).run init is = some (d, trace))
    (isOpaque : ∃ url ∈ upstreamCaches, ¬ url.canBeABase) :
    Disarmed parse hash fmt cache upstreamCaches d trace := by
  have staffed := run_staffed hrun
  refine { readOnly := ?_, skipped := ?_, fragile := ?_ }
  · intro path o member
    have inHistory : (path, o) ∈ taskHistory trace := mem_taskHistory.mpr member
    obtain ⟨handle, is, hrun, -⟩ := staffed.ran_of_started (staffed.started inHistory)
    have unchanged := (beforeProbe_of_run isOpaque hrun).2 o
      ((mem_own hash).mpr ⟨path, rfl, inHistory⟩)
    exact ⟨unchanged, readOnly_of_not_mutates unchanged⟩
  · intro path result member
    obtain ⟨is, hrun⟩ := staffed.recorded member
    have before := (beforeProbe_of_run isOpaque hrun).1
    rcases result with e | (_ | numBytes)
    · exact before.elim
    · rfl
    · exact before.elim
  · intro i path check found running waiting
    have running' := List.mem_append_left (finished trace) (List.mem_of_getElem? found)
    obtain ⟨is, hrun, -⟩ := staffed.tasks.ran _ running'
    obtain ⟨panic, failed⟩ := probe_of_opaque fmt path isOpaque
    exact crashes_of_probe failed found (beforeProbe_of_run isOpaque hrun).1 running waiting

theorem opaque_cache_disarms_mail :
    ∃ d trace, mailDaemon.run init mailRun = some (d, trace) ∧
      Disarmed parsePair Prod.fst exampleFormats exampleCache [mailCache] d trace := by
  obtain ⟨d, trace, hrun, -⟩ := mailRun_runs
  exact ⟨d, trace, hrun, opaque_cache_disarms _ _ _ _ _ hrun mailCache_isOpaque⟩

end Daemon

end CacheAction
