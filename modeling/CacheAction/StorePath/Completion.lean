import CacheAction.Foundations.Completion
import CacheAction.StorePath.Backpressure
import CacheAction.StorePath.StoredNar
import CacheAction.Sub60.Progress

/-!
# Handling a path comes to an end

`handle_store_path` waits for a server, for the store and, where its two halves run, for
either half.  Here the others do their part (`Obliging`): `write_nar` writes the NAR of the
path and offers some bytes whenever it writes, it fails only if there is no NAR, and then
after at most `limit` bytes; servers answer in any way, and hand out URLs that can be used.

`handle_store_path_completes`: then the path is handled, whatever the schedule of the two
halves, the sizes of reads and writes and the answers.  No step but a pending poll leaves as
much to do as there was (`Handle.load`), and until it has returned some step that does
something is possible.

### What has to be assumed

Nothing of what the others send is restricted that the handler could cope with: statuses,
failures, entity tags, the sizes of reads, and which half is polled next are arbitrary.
`Obliging` excludes only what would keep it busy without getting it on.

* `write_nar` is `FromStore` and offers no empty buffer.  An empty write is accepted by a
  pipe that is full, so a writer could offer nothing for ever; no writer does that, since
  they all loop over what is left of their bytes.
* If the store has no NAR of the path, `write_nar` fails some time.  The source has no bound
  for what it writes before, and there need not be one: `limit` is any number, the same for
  all paths, and the theorem is for every such number.
* A URL that is handed out can be used (`Timely`).  Without this the loop that asks for more
  URLs goes round for ever, on empty batches or on batches that have expired on arrival; the
  server answers each of these requests, so no timeout ends it either.

That the inputs which `Obliging` allows exist is the other half of the theorem: in every
state there is one that gets the handler on.

### What becomes less

`Handle.load` is lexicographic, and its order is the order in which one thing makes another:
a phase begins the work of the next one, so the phase comes first; what `write_nar` writes is
what the upload then has to read, so `unwritten` comes before the load of the upload.  In
the check, an answer of the own cache may set the handler to waiting for the upstream half
alone, with as many answers outstanding as before, so the number of halves comes before the
number of answers.
-/

namespace CacheAction

namespace HandleStorePath

open Sub60 UpstreamCaches

variable {P C σ δ E : Type} (nix : Nix P C E) (fmt : HandleFormats P σ δ E)
  (cache : Sub60Cache) (path : P) (upstreamCaches : List Url)

/-! ## What is left to do -/

/-- What the upstream half waits for.  A half that has not been polled has not sent its
requests yet, and how many they will be is not in its state, so it counts for more than any
number of answers. -/
def Upstream.load : Upstream → ℕ ×ₗ ℕ
  | .unpolled => toLex (1, 0)
  | .waiting pending => toLex (0, pending + 1)
  | .finished _ => toLex (0, 0)

/-- What `should_push_store_path` waits for: the own cache, and the others.  The first
component is 1 as long as the answer of the own cache is outstanding. -/
def Check.load : Check E → ℕ ×ₗ ℕ ×ₗ ℕ
  | .selecting upstream => toLex (1, upstream.load)
  | .left _ upstream => toLex (0, upstream.load)
  | .right => toLex (1, toLex (0, 0))
  | .returned _ => toLex (0, toLex (0, 0))
  | .panicked _ => toLex (0, toLex (0, 0))

/-- It does wait for something.  A check that is still going on with a finished half is not seen
between two steps: `select` is done as soon as one of its futures is, and so is the wait for
the upstream half after it. -/
def Check.Waiting : Check E → Prop
  | .selecting (.finished _) => False
  | .selecting _ => True
  | .left _ (.finished _) => False
  | .left _ _ => True
  | .right => True
  | .returned _ => False
  | .panicked _ => False

/-- How far a path is from being handled. -/
def Handle.phase : Handle P σ δ E → ℕ
  | .called => 6
  | .checking _ => 5
  | .initiating => 4
  | .streaming _ => 3
  | .gettingInfos _ _ _ => 2
  | .uploadingNarinfo _ _ => 1
  | .returned _ => 0
  | .panicked _ => 0

/-- The bytes that `write_nar` can still write.  They are counted by what the pipe has accepted,
which is in the trace and in no state. -/
def unwritten (limit : ℕ) (trace : List (HandleObs P δ)) : ℕ :=
  ((nix.nar path).map List.length).getD limit - (handleLog trace).accepted.length

/-- The work that is left: the phase, and what it consists of. -/
def Handle.load (limit : ℕ) (trace : List (HandleObs P δ)) (handle : Handle P σ δ E) :
    ℕ ×ₗ (ℕ ×ₗ ℕ ×ₗ ℕ) ×ₗ ℕ ×ₗ ℕ ×ₗ ℕ ×ₗ ℕ ×ₗ ℕ :=
  toLex (handle.phase,
    match handle with
    | .checking check =>
        toLex (check.load, toLex (0, toLex (0, toLex (0, toLex (0, 0)))))
    | .streaming halves =>
        toLex (toLex (0, toLex (0, 0)),
          toLex (unwritten nix path limit trace + (if halves.written then 0 else 1),
            halves.upload.load (justReceived (uploads trace))))
    | _ => toLex (toLex (0, toLex (0, 0)), toLex (0, toLex (0, toLex (0, toLex (0, 0))))))

/-! ## What a step can do -/

/-- What a step can do, as far as it matters here.

`HandleStep` (`CacheAction.StorePath.Handle`) already lists the steps, with everything that is
known in each.  Here these are sorted by what they do to the work that is left: they keep it
all, they end a phase, or they take some off the part that belongs to the present phase.  The
ends of all phases are one constructor, because nothing about them matters but that the phase
becomes less, that no upload comes before its time (`quiet`) and that what begins is as it
should be (`waits`, `starts`).  This is what keeps the measure proof (`Moves.load_lt`) and the
invariant (`Live.step`) to six cases instead of some thirty. -/
inductive Moves (handle : Handle P σ δ E) (input : HandleInput E) :
    Handle P σ δ E → List (HandleObs P δ) → Prop where
  /-- A poll is pending. -/
  | still : Moves handle input handle []
  /-- A phase has ended, with success or not. -/
  | next {handle' out} (later : handle'.phase < handle.phase)
      (quiet : 3 < handle.phase → uploads out = [])
      (waits : ∀ check, handle' = .checking check → check.Waiting)
      (starts : ∀ halves, handle' = .streaming halves →
        3 < handle.phase ∧ ∃ state, halves.upload = .start state) :
      Moves handle input handle' out
  /-- An answer to the check, which then waits for fewer of them. -/
  | checked {check check' : Check E} {out : List CheckObs} (checking : handle = .checking check)
      (waits : check'.Waiting) (fewer : check'.load < check.load) :
      Moves handle input (.checking check') (out.map .check)
  /-- The pipe has taken some of the bytes that `write_nar` offers. -/
  | wrote {halves writer buf limit bytes} (streaming : handle = .streaming halves)
      (polled : input = .write buf limit) (some_bytes : bytes ≠ []) (first : bytes <+: buf) :
      Moves handle input (.streaming { halves with writer }) [.accepted bytes]
  /-- `write_nar` has returned, and the writer has been shut down. -/
  | finished {halves} (streaming : handle = .streaming halves) (writing : halves.written = false) :
      Moves handle input
        (.streaming { halves with writer := halves.writer.close, written := true })
        [.writerReturned true]
  /-- The uploading half has taken a step, on bytes from the pipe or on an answer. -/
  | uploaded {halves writer input' upload} {out : List UploadObs}
      (streaming : handle = .streaming halves)
      (ofUpload : (∃ polled, input' = .read polled) ∨ input = .upload input')
      (kept : input' = .read .pending → writer = halves.writer)
      (step : UploadStep fmt.toFormats cache halves.upload input' upload out) :
      Moves handle input (.streaming { halves with writer, upload }) (out.map .upload)

section Steps

variable {nix fmt cache path upstreamCaches} {handle handle' : Handle P σ δ E}
  {input : HandleInput E} {trace out : List (HandleObs P δ)}

/-- An answer is one less to wait for, and a positive one ends the wait. -/
theorem Upstream.load_next {pending : ℕ} {status : Option StatusCode} :
    (Upstream.next pending status).load < Upstream.load (.waiting pending) := by
  unfold Upstream.next
  split_ifs
  · exact Prod.Lex.toLex_lt_toLex.mpr (.inr ⟨rfl, Nat.succ_pos pending⟩)
  · exact Prod.Lex.toLex_lt_toLex.mpr (.inr ⟨rfl, Nat.succ_pos pending⟩)
  · exact Prod.Lex.toLex_lt_toLex.mpr (.inr ⟨rfl, by dsimp only; omega⟩)

theorem Upstream.load_sent (requests : List Url) :
    (Upstream.sent requests).load < Upstream.unpolled.load := by
  unfold Upstream.sent
  split_ifs <;> simp [Upstream.load, Prod.Lex.toLex_lt_toLex]

/-- The upstream half has taken a step in `select`: that settles the check, or leaves the
answer of the own cache outstanding. -/
theorem load_selectRight (upstream : Upstream) :
    (∃ push, (Check.selectRight upstream : Check E) = .returned push) ∨
      (Check.selectRight upstream : Check E).Waiting ∧
        (Check.selectRight upstream : Check E).load = toLex (1, upstream.load) := by
  rcases upstream with _ | pending | (_ | _)
  · exact .inr ⟨trivial, rfl⟩
  · exact .inr ⟨trivial, rfl⟩
  · exact .inr ⟨trivial, rfl⟩
  · exact .inl ⟨_, rfl⟩

/-- The same after the own cache has answered. -/
theorem load_afterLeft (failure : Option (CacheRequestError E)) (upstream : Upstream) :
    (∃ push, Check.afterLeft failure upstream = .returned push) ∨
      (Check.afterLeft failure upstream).Waiting ∧
        (Check.afterLeft failure upstream).load = toLex (0, upstream.load) := by
  rcases upstream with _ | pending | found
  · exact .inr ⟨trivial, rfl⟩
  · exact .inr ⟨trivial, rfl⟩
  · refine .inl ?_
    rcases failure with _ | e
    · exact ⟨_, rfl⟩
    · cases found <;> exact ⟨_, rfl⟩

/-- A step of the check ends it or leaves less to wait for. -/
theorem CheckStep.load_lt {narinfoFilename : String} {check check' : Check E}
    {input : CheckInput E} {out : List CheckObs} (waiting : check.Waiting)
    (step : CheckStep fmt.toFormats cache narinfoFilename upstreamCaches check input check' out) :
    (∃ push, check' = .returned push) ∨ (∃ panic, check' = .panicked panic) ∨
      check'.Waiting ∧ check'.load < check.load := by
  have probed (resume : Upstream → Check E) (n : ℕ)
      (resumed : ∀ upstream, (∃ push, resume upstream = .returned push) ∨
        (resume upstream).Waiting ∧ (resume upstream).load = toLex (n, upstream.load)) :
      (∃ push, (Check.probe fmt.toFormats narinfoFilename upstreamCaches resume).1 =
          .returned push) ∨
        (∃ panic, (Check.probe fmt.toFormats narinfoFilename upstreamCaches resume).1 =
          .panicked panic) ∨
        (Check.probe fmt.toFormats narinfoFilename upstreamCaches resume).1.Waiting ∧
          (Check.probe fmt.toFormats narinfoFilename upstreamCaches resume).1.load <
            toLex (n, Upstream.unpolled.load) := by
    unfold Check.probe
    split
    · exact .inr (.inl ⟨_, rfl⟩)
    · rename_i urls pushed
      rcases resumed (.sent urls) with returned | ⟨waits, load⟩
      · exact .inl returned
      · refine .inr (.inr ⟨waits, ?_⟩)
        rw [load, Prod.Lex.toLex_lt_toLex]
        exact .inr ⟨rfl, Upstream.load_sent urls⟩
  cases step with
  | @ownFirst upstream sent =>
      have less : toLex (0, upstream.load) < (Check.selecting upstream : Check E).load :=
        Prod.Lex.toLex_lt_toLex.mpr (.inl Nat.zero_lt_one)
      have waits (failure : Option (CacheRequestError E)) :
          (Check.left failure upstream).Waiting := by
        rcases upstream with _ | _ | _
        · trivial
        · trivial
        · exact waiting
      unfold Check.selectLeft
      split
      · exact .inl ⟨_, rfl⟩
      · exact .inr (.inr ⟨waits _, less⟩)
      · exact .inr (.inr ⟨waits _, less⟩)
  | probeSelecting => exact probed .selectRight 1 load_selectRight
  | @upstreamSelecting pending status =>
      refine (load_selectRight (.next pending status)).imp_right fun ⟨waits, load⟩ =>
        .inr ⟨waits, ?_⟩
      rw [load]
      exact Prod.Lex.toLex_lt_toLex.mpr (.inr ⟨rfl, Upstream.load_next⟩)
  | @probeLeft failure => exact probed (.afterLeft failure) 0 (load_afterLeft failure)
  | @upstreamLeft failure pending status =>
      refine (load_afterLeft failure (.next pending status)).imp_right fun ⟨waits, load⟩ =>
        .inr ⟨waits, ?_⟩
      rw [load]
      exact Prod.Lex.toLex_lt_toLex.mpr (.inr ⟨rfl, Upstream.load_next⟩)
  | ownLast => exact .inl ⟨_, rfl⟩

/-- The two halves are over. -/
theorem Moves.done (running : handle.phase ≤ 3) (less : handle'.phase < handle.phase) :
    Moves fmt cache handle input handle' out := by
  refine .next less (fun early => absurd early (Nat.not_lt.mpr running)) ?_ ?_
  · rintro check rfl
    exact absurd (Nat.lt_of_lt_of_le less running) (by decide : ¬ 5 < 3)
  · rintro halves rfl
    exact absurd (Nat.lt_of_lt_of_le less running) (Nat.lt_irrefl 3)

variable (fmt) in
/-- `try_join` goes on with both halves, or is done with them. -/
theorem join_cases (halves : Streaming σ E) :
    (Handle.join fmt halves : Handle P σ δ E) = .streaming halves ∨
      (Handle.join fmt halves : Handle P σ δ E).phase < 3 := by
  unfold Handle.join
  -- the upload has failed, or it has succeeded, or it goes on
  split
  · exact .inr (Nat.zero_lt_succ _)
  · split_ifs
    · refine .inr ?_
      unfold Handle.finish
      split
      · exact Nat.zero_lt_succ _
      · exact Nat.lt_succ_self _
    · exact .inl rfl
  · exact .inl rfl

/-- A step of the upload, and what becomes of both halves. -/
theorem moves_of_uploadStep {halves : Streaming σ E} {writer : HashAndCountWriter σ}
    {input' : UploadInput E} (streaming : handle = .streaming halves)
    (ofUpload : (∃ polled, input' = .read polled) ∨ input = .upload input')
    (kept : input' = .read .pending → writer = halves.writer)
    (h : Handle.uploadStep fmt cache { halves with writer } input' = some (handle', out)) :
    Moves fmt cache handle input handle' out := by
  obtain ⟨⟨upload, outputs⟩, hstep, hnext⟩ := Option.map_eq_some_iff.mp h
  obtain ⟨rfl, rfl⟩ := Prod.ext_iff.mp hnext
  rcases join_cases (P := P) (δ := δ) fmt { halves with writer, upload } with again | less
  · rw [show Handle.join fmt _ = _ from again]
    exact .uploaded streaming ofUpload kept (Upload.step_spec hstep)
  · subst streaming
    exact .done (Nat.le_refl 3) less

variable (fmt) in
/-- A write is pending, or the pipe has accepted some bytes. -/
theorem pollWrite_cases (writer : HashAndCountWriter σ) {buf : List UInt8} (nonempty : buf ≠ [])
    (limit : ℕ) :
    (∃ numBytes writer', writer.pollWrite fmt.sha256 buf limit =
        (.ready (.ok numBytes), writer') ∧ buf.take numBytes ≠ []) ∨
      (writer.pollWrite fmt.sha256 buf limit).2 = writer ∧
        ∀ numBytes, (writer.pollWrite fmt.sha256 buf limit).1 ≠ .ready (.ok numBytes) := by
  unfold HashAndCountWriter.pollWrite Pipe.pollWrite
  split_ifs with closed full
  · exact .inr ⟨rfl, by rintro _ ⟨⟩⟩
  · exact .inr ⟨rfl, by rintro _ ⟨⟩⟩
  · refine .inl ⟨_, _, rfl, ?_⟩
    rw [Ne, List.take_eq_nil_iff]
    exact fun nothing => full ⟨nothing.resolve_right nonempty, nonempty⟩

variable (fmt path) in
/-- After a step of the check, it goes on waiting or the next phase begins. -/
theorem afterCheck_cases (check : Check E) :
    (Handle.afterCheck (σ := σ) fmt path check).1.phase < 5 ∧
        (∀ halves, (Handle.afterCheck fmt path check).1 ≠ .streaming halves) ∧
        uploads (Handle.afterCheck (σ := σ) fmt path check).2 = [] ∨
      Handle.afterCheck (σ := σ) fmt path check = (.checking check, []) := by
  unfold Handle.afterCheck
  split
  · exact .inl ⟨Nat.lt_succ_self 4, by rintro _ ⟨⟩, rfl⟩
  · exact .inl ⟨Nat.zero_lt_succ 4, by rintro _ ⟨⟩, rfl⟩
  · exact .inl ⟨Nat.zero_lt_succ 4, by rintro _ ⟨⟩, rfl⟩
  · exact .inl ⟨Nat.zero_lt_succ 4, by rintro _ ⟨⟩, rfl⟩
  · exact .inr rfl

/-- **Inversion of a step.**  The two hypotheses are what keeps a step from leaving as much to do
as there was: a check that waits for nothing, and a write of no bytes to a pipe with room. -/
theorem Handle.moves (waiting : ∀ check, handle = .checking check → check.Waiting)
    (offers : ∀ buf limit, input = .write buf limit → buf ≠ [])
    (h : Handle.step fmt cache path upstreamCaches handle input = some (handle', out)) :
    Moves fmt cache handle input handle' out := by
  cases Handle.step_spec _ _ _ _ h with
  | start =>
      refine .next (Nat.lt_succ_self 5) (fun _ => uploads_check _) ?_ (by rintro _ ⟨⟩)
      rintro _ ⟨⟩
      trivial
  | @check check check' input' outputs done =>
      have load := (Check.step_spec _ _ _ _ done).load_lt (waiting check rfl)
      rcases afterCheck_cases (σ := σ) fmt path check' with
        ⟨less, other, quiet⟩ | again
      · refine .next less (fun _ => ?_) ?_ fun halves same => absurd same (other halves)
        · rw [uploads, List.filterMap_append]
          show uploads _ ++ uploads _ = _
          rw [uploads_check, quiet]
          rfl
        · intro check'' same
          rw [same] at less
          exact absurd less (Nat.lt_irrefl 5)
      · -- the check goes on, so it has not returned
        rw [again, List.append_nil]
        rcases load with ⟨push, rfl⟩ | ⟨panic, rfl⟩ | ⟨waits, fewer⟩
        · rcases push with e | (_ | _) <;> cases again
        · cases again
        · exact .checked rfl waits fewer
  | initiated =>
      unfold Handle.receiveState
      split
      · exact .next (Nat.zero_lt_succ 3) (fun _ => rfl) (by rintro _ ⟨⟩) (by rintro _ ⟨⟩)
      · rename_i state answer
        refine .next (Nat.lt_succ_self 3) (fun _ => rfl) (by rintro _ ⟨⟩) ?_
        rintro _ ⟨⟩
        exact ⟨Nat.lt_succ_self 3, state, rfl⟩
  | @write halves buf limit writing =>
      unfold Handle.write
      rcases pollWrite_cases fmt halves.writer (offers buf limit rfl) limit with
        ⟨numBytes, writer, polled, accepted⟩ | ⟨same, refused⟩
      · rw [polled]
        exact .wrote rfl rfl accepted (List.take_prefix _ _)
      · split
        · rename_i numBytes writer polled
          exact absurd (congrArg Prod.fst polled) (refused numBytes)
        · rename_i other writer _ polled
          rw [polled] at same
          obtain rfl : writer = halves.writer := same
          exact .still
  | writeFails writing => exact .done (Nat.le_refl 3) (Nat.zero_lt_succ 2)
  | @shutdown halves result writing =>
      rcases result with e | ⟨⟩
      · exact .done (Nat.le_refl 3) (Nat.zero_lt_succ 2)
      · show Moves fmt cache _ _ (Handle.join fmt _) [.writerReturned true]
        rcases join_cases (P := P) (δ := δ) fmt
          { halves with writer := halves.writer.close, written := true } with again | less
        · rw [again]
          exact .finished rfl writing
        · exact .done (Nat.le_refl 3) less
  | read done =>
      -- a pending read leaves the pipe as it is
      unfold Handle.read at done
      split at done
      · exact moves_of_uploadStep rfl (.inl ⟨_, rfl⟩) (fun _ => rfl) done
      · exact moves_of_uploadStep rfl (.inl ⟨_, rfl⟩) (by rintro ⟨⟩) done
  | readFails done => exact moves_of_uploadStep rfl (.inl ⟨_, rfl⟩) (fun _ => rfl) done
  | upload other done => exact moves_of_uploadStep rfl (.inr rfl) (fun _ => rfl) done
  | pathInfos =>
      unfold Handle.receiveInfos
      split
      · exact .done (Nat.le_succ 2) (Nat.zero_lt_succ 1)
      · exact .done (Nat.le_succ 2) (Nat.lt_succ_self 1)
  | narinfoSent =>
      unfold Handle.receivePublication
      split
      · exact .done (Nat.le_add_left 1 2) Nat.zero_lt_one
      · exact .done (Nat.le_add_left 1 2) Nat.zero_lt_one

end Steps

/-! ## The others -/

/-- The others do their part: the store answers for the path, `write_nar` offers some bytes
whenever it writes and ends, and URLs come in time.  It is a condition on one input, in the
state in which it comes and after the trace so far, so that it can be asked of a whole run
(`Machine.Follows`) and of a task among others alike. -/
def Obliging (limit : ℕ) (handle : Handle P σ δ E) (trace : List (HandleObs P δ))
    (input : HandleInput E) : Prop :=
  FromStore nix path handle trace input ∧
    match input with
    | .write buf _ => buf ≠ [] ∧
        (nix.nar path = none → (handleLog trace).accepted.length + buf.length ≤ limit)
    | .writeFails _ => nix.nar path = none
    | .shutdown (.error _) => nix.nar path = none
    | .upload input => ∀ halves, handle = .streaming halves →
        Timely fmt.toFormats cache halves.upload (uploads trace) input
    | _ => True

/-- The input does something: no poll is pending.

A pending poll is the only step that changes nothing, and there is no bound for how many of
them come in between: the runtime may poll a task as often as it likes.  So they are not
counted, and completion says that the *other* steps come to an end. -/
def Changes (handle : Handle P σ δ E) (input : HandleInput E) : Prop :=
  ∃ handle' out, Handle.step fmt cache path upstreamCaches handle input = some (handle', out) ∧
    handle' ≠ handle

/-- The path has been handled, or the handler has panicked. -/
def Handle.Over : Handle P σ δ E → Prop
  | .returned _ => True
  | .panicked _ => True
  | _ => False

/-- What holds on the way: what the earlier modules know of a run (`known`, `stored`, `joined`),
and three facts without which a step might leave as much to do as there was.  A check that
waits for nothing would have returned (`waiting`), and URLs that have just been received can
be used at once (`supplied`). -/
structure Live (trace : List (HandleObs P δ)) (handle : Handle P σ δ E) : Prop where
  known : Known fmt path trace handle
  stored : StoredNar nix fmt path (handleLog trace)
  joined : ∀ halves, handle = .streaming halves → Joined halves
  early : 3 < handle.phase → uploads trace = []
  waiting : ∀ check, handle = .checking check → check.Waiting
  supplied : ∀ halves, handle = .streaming halves → Supplied halves.upload (uploads trace)

section Liveness

variable {nix fmt cache path upstreamCaches} {limit : ℕ} {handle handle' : Handle P σ δ E}
  {input : HandleInput E} {trace out : List (HandleObs P δ)}

/-- Nothing has happened. -/
theorem live_called : Live nix fmt path [] (.called : Handle P σ δ E) where
  known := .called rfl
  stored := ⟨fun _ _ => List.nil_prefix, by rintro ⟨⟩, by rintro entry ⟨⟩⟩
  joined := by rintro _ ⟨⟩
  early _ := rfl
  waiting := by rintro _ ⟨⟩
  supplied := by rintro _ ⟨⟩

/-- URLs are in time for a step of the upload. -/
theorem Obliging.timely {halves : Streaming σ E} {input' : UploadInput E}
    (obliging : Obliging nix fmt cache path limit handle trace input)
    (streaming : handle = .streaming halves)
    (ofUpload : (∃ polled, input' = .read polled) ∨ input = .upload input') :
    Timely fmt.toFormats cache halves.upload (uploads trace) input' := by
  rcases ofUpload with ⟨polled, rfl⟩ | rfl
  · trivial
  · exact obliging.2 halves streaming

/-- No upload has taken a step before the halves are started. -/
theorem Moves.early (moves : Moves fmt cache handle input handle' out)
    (live : Live nix fmt path trace handle) (early : 3 < handle'.phase) :
    uploads (trace ++ out) = [] := by
  cases moves with
  | still =>
      rw [List.append_nil]
      exact live.early early
  | next later quiet waits starts =>
      rw [uploads_append, live.early (early.trans later), quiet (early.trans later)]
      rfl
  | checked checking waits fewer =>
      subst checking
      rw [uploads_append, live.early (by show 3 < 5; omega), uploads_check]
      rfl
  | _ => exact absurd early (Nat.lt_irrefl 3)

/-- URLs that have just been received can still be used after a step of another part of the
handler, and after one of the upload by what is known of the upload. -/
theorem Moves.supplied (moves : Moves fmt cache handle input handle' out)
    (live : Live nix fmt path trace handle)
    (obliging : Obliging nix fmt cache path limit handle trace input) {halves : Streaming σ E}
    (streaming : handle' = .streaming halves) :
    Supplied halves.upload (uploads (trace ++ out)) := by
  cases moves with
  | still =>
      rw [List.append_nil]
      exact live.supplied halves streaming
  | next later quiet waits starts =>
      obtain ⟨early, state, start⟩ := starts halves streaming
      rw [uploads_append, live.early early, quiet early]
      rintro locals - ⟨⟩
  | checked => cases streaming
  | @wrote halves writer buf limit bytes running =>
      cases streaming
      have before := live.supplied halves running
      show Supplied halves.upload (uploads (trace ++ [_]))
      rwa [uploads_append, show uploads [HandleObs.accepted bytes] = [] from rfl,
        List.append_nil]
  | @finished halves running =>
      cases streaming
      have before := live.supplied halves running
      show Supplied halves.upload (uploads (trace ++ [_]))
      rwa [uploads_append, show uploads [HandleObs.writerReturned true] = [] from rfl,
        List.append_nil]
  | uploaded running ofUpload kept step =>
      cases streaming
      rw [uploads_append, uploads_upload]
      exact step.supplied (live.supplied _ running) (obliging.timely running ofUpload)

/-- **Every step keeps this up.** -/
theorem Live.step (live : Live nix fmt path trace handle)
    (obliging : Obliging nix fmt cache path limit handle trace input)
    (h : Handle.step fmt cache path upstreamCaches handle input = some (handle', out)) :
    Live nix fmt path (trace ++ out) handle' := by
  have moves := Handle.moves live.waiting (by rintro buf _ rfl; exact obliging.2.1) h
  refine
    { known := live.known.step h
      stored := live.stored.step live.known obliging.1 h
      joined := fun halves streaming => Joined.step live.joined (streaming ▸ h)
      early := moves.early live
      waiting := ?_
      supplied := fun halves => moves.supplied live obliging }
  cases moves with
  | still => exact live.waiting
  | next later quiet waits starts => exact waits
  | checked checking waits fewer =>
      rintro _ ⟨⟩
      exact waits
  | _ => rintro _ ⟨⟩

theorem accepted_append (trace out : List (HandleObs P δ)) :
    (handleLog (trace ++ out)).accepted =
      (handleLog trace).accepted ++ (handleLog out).accepted :=
  List.flatMap_append

/-- A write of the NAR leaves less to write. -/
theorem unwritten_lt {buf bytes : List UInt8} {n : ℕ}
    (obliging : Obliging nix fmt cache path limit handle trace (.write buf n))
    (some_bytes : bytes ≠ []) (first : bytes <+: buf) :
    unwritten nix path limit (trace ++ [.accepted bytes]) < unwritten nix path limit trace := by
  have more := List.length_pos_iff.mpr some_bytes
  have within := first.length_le
  have log : (handleLog (trace ++ [.accepted bytes])).accepted =
      (handleLog trace).accepted ++ bytes := by
    rw [accepted_append]
    exact congrArg ((handleLog trace).accepted ++ ·) (List.append_nil bytes)
  unfold unwritten
  rw [log, List.length_append]
  rcases nar : nix.nar path with _ | whole
  · -- without a NAR the limit bounds what is offered
    have bounded := obliging.2.2 nar
    show limit - _ < limit - _
    omega
  · -- with one, what is offered is what comes next in it
    have next := (obliging.1 whole nar).length_le
    rw [List.length_append] at next
    show whole.length - _ < whole.length - _
    omega

/-- **Every step leaves less to do**, unless a poll is pending.  The case of the measure that goes
down is the constructor of the move: the phase, the check, the bytes to be written with the
return of `write_nar` after them, or the upload. -/
theorem Moves.load_lt (moves : Moves fmt cache handle input handle' out)
    (live : Live nix fmt path trace handle)
    (obliging : Obliging nix fmt cache path limit handle trace input) :
    (handle' = handle ∧ out = []) ∨
      handle'.load nix path limit (trace ++ out) < handle.load nix path limit trace := by
  cases moves with
  | still => exact .inl ⟨rfl, rfl⟩
  | next later quiet waits starts => exact .inr (Prod.Lex.toLex_lt_toLex.mpr (.inl later))
  | checked checking waits fewer =>
      subst checking
      refine .inr (Prod.Lex.toLex_lt_toLex.mpr (.inr ⟨rfl, ?_⟩))
      exact Prod.Lex.toLex_lt_toLex.mpr (.inl fewer)
  | @wrote halves writer buf n bytes running polled some_bytes first =>
      subst running polled
      refine .inr (Prod.Lex.toLex_lt_toLex.mpr (.inr ⟨rfl, ?_⟩))
      refine Prod.Lex.toLex_lt_toLex.mpr (.inr ⟨rfl, Prod.Lex.toLex_lt_toLex.mpr (.inl ?_)⟩)
      exact Nat.add_lt_add_right (unwritten_lt obliging some_bytes first) _
  | @finished halves running writing =>
      subst running
      have same : unwritten nix path limit (trace ++ [.writerReturned true]) =
          unwritten nix path limit trace := by
        unfold unwritten
        rw [accepted_append]
        exact congrArg (fun accepted => _ - List.length accepted) (List.append_nil _)
      refine .inr (Prod.Lex.toLex_lt_toLex.mpr (.inr ⟨rfl, ?_⟩))
      refine Prod.Lex.toLex_lt_toLex.mpr (.inr ⟨rfl, Prod.Lex.toLex_lt_toLex.mpr (.inl ?_)⟩)
      dsimp only
      rw [same, writing]
      exact Nat.lt_succ_self _
  | @uploaded halves writer input' upload out running ofUpload kept step =>
      subst running
      rcases step.load_lt (live.supplied halves rfl) (obliging.timely rfl ofUpload) with
        ⟨rfl, rfl, rfl⟩ | less
      · rw [kept rfl]
        exact .inl ⟨rfl, rfl⟩
      · have same : unwritten nix path limit (trace ++ out.map .upload) =
            unwritten nix path limit trace := by
          unfold unwritten
          rw [accepted_append, handleLog_uploads]
          exact congrArg (fun accepted => _ - List.length accepted) (List.append_nil _)
        refine .inr (Prod.Lex.toLex_lt_toLex.mpr (.inr ⟨rfl, ?_⟩))
        refine Prod.Lex.toLex_lt_toLex.mpr (.inr ⟨rfl, ?_⟩)
        refine Prod.Lex.toLex_lt_toLex.mpr (.inr ⟨congrArg (· + _) same, ?_⟩)
        rw [uploads_append, uploads_upload]
        exact less

/-- It holds in every state that a run reaches. -/
theorem live_of_run {is : List (HandleInput E)}
    (follows : (handleMachine fmt cache path upstreamCaches).Follows
      (Obliging nix fmt cache path limit) .called [] is)
    (hrun : (handleMachine fmt cache path upstreamCaches).run .called is =
      some (handle, trace)) : Live nix fmt path trace handle := by
  have live := (handleMachine fmt cache path upstreamCaches).run_invariant_of_follows
    (I := fun handle trace => Live nix fmt path trace handle)
    (fun _ _ _ _ _ live obliging hstep => live.step obliging hstep) follows live_called hrun
  rwa [List.nil_append] at live

/-- A step that changes nothing, or leaves less to do. -/
theorem Live.load_lt (live : Live nix fmt path trace handle)
    (obliging : Obliging nix fmt cache path limit handle trace input)
    (h : Handle.step fmt cache path upstreamCaches handle input = some (handle', out)) :
    (¬ Changes fmt cache path upstreamCaches handle input ∧ handle' = handle ∧ out = []) ∨
      handle'.load nix path limit (trace ++ out) < handle.load nix path limit trace := by
  have moves := Handle.moves live.waiting (by rintro buf _ rfl; exact obliging.2.1) h
  refine (moves.load_lt live obliging).imp_left ?_
  rintro ⟨rfl, rfl⟩
  refine ⟨?_, rfl, rfl⟩
  rintro ⟨next, out, hnext, changed⟩
  exact changed (congrArg Prod.fst (Option.some.inj (hnext.symm.trans h)))

/-! ## It can go on -/

variable (fmt cache path upstreamCaches) in
/-- A check that waits can get an answer. -/
theorem Check.exists_step {check : Check E} (waiting : check.Waiting) [Inhabited E] :
    ∃ input next, Check.step fmt.toFormats cache (fmt.narinfoFilename path) upstreamCaches check
      input = some next := by
  rcases check with (_ | _ | _) | ⟨failure, _ | _ | _⟩ | _ | _ | _
  · exact ⟨.probe, _, rfl⟩
  · exact ⟨.upstream none, _, rfl⟩
  · exact waiting.elim
  · exact ⟨.probe, _, rfl⟩
  · exact ⟨.upstream none, _, rfl⟩
  · exact waiting.elim
  · exact ⟨.own (.error default), _, rfl⟩
  · exact waiting.elim
  · exact waiting.elim

variable (fmt cache path upstreamCaches) in
/-- The answer changes the check: it ends it, or lowers what it waits for. -/
theorem changes_check {check : Check E} (waiting : check.Waiting) [Inhabited E] :
    ∃ input, Changes fmt cache path upstreamCaches (.checking check) (.check input) := by
  obtain ⟨input, ⟨check', outputs⟩, hstep⟩ :=
    Check.exists_step fmt cache path upstreamCaches waiting
  refine ⟨input, _, _, congrArg (Option.map _) hstep, ?_⟩
  dsimp only
  rcases afterCheck_cases (σ := σ) fmt path check' with ⟨less, -⟩ | again
  · intro same
    rw [same] at less
    exact absurd less (Nat.lt_irrefl 5)
  · rw [again]
    rcases (Check.step_spec _ _ _ _ hstep).load_lt waiting with
      ⟨push, rfl⟩ | ⟨panic, rfl⟩ | ⟨waits, fewer⟩
    · rcases push with e | (_ | _) <;> cases again
    · cases again
    · rintro ⟨⟩
      exact absurd fewer (lt_irrefl _)

/-- A step of the upload changes something. -/
theorem changes_upload {halves : Streaming σ E} (writer : HashAndCountWriter σ)
    {input' : UploadInput E} (next : Upload E × List UploadObs)
    (unpending : input' ≠ .read .pending)
    (hstep : Upload.step fmt.toFormats cache halves.upload input' = some next) :
    ∃ handle' out, Handle.uploadStep (P := P) (δ := δ) fmt cache { halves with writer } input' =
      some (handle', out) ∧ handle' ≠ .streaming halves := by
  refine ⟨_, _, congrArg (Option.map _) hstep, ?_⟩
  have changed := (Upload.step_spec hstep).changed unpending
  dsimp only
  rcases join_cases (P := P) (δ := δ) fmt { halves with writer, upload := next.1 } with
    again | less
  · rw [again]
    intro same
    exact changed (congrArg Streaming.upload (Handle.streaming.inj same))
  · intro same
    rw [same] at less
    exact absurd less (Nat.lt_irrefl 3)

variable (fmt cache) in
/-- The uploader goes on with a byte, and with the end of the stream. -/
theorem Upload.exists_fill {locals : Locals} (partUrl : Url) {numRead : ℕ} {bytes : List UInt8}
    (room : numRead < locals.partBytesBuf.length) (small : bytes.length ≤ 1) :
    ∃ next, Upload.step fmt.toFormats cache (.filling locals partUrl numRead)
      (.read (.ready (.ok bytes))) = some next := by
  rcases bytes with _ | ⟨b, data⟩
  · exact ⟨_, rfl⟩
  · have fits : numRead + (b :: data).length ≤ locals.partBytesBuf.length :=
      Nat.le_trans (Nat.add_le_add_left small numRead) room
    simp only [Upload.step, Upload.fill, if_pos fits]
    split
    · exact ⟨_, rfl⟩
    · exact ⟨_, rfl⟩

/-- Reading what is in the pipe.  One byte is asked for, which fits any buffer that has room. -/
theorem changes_read {halves : Streaming σ E} {locals : Locals} {partUrl : Url} {numRead : ℕ}
    (filling : halves.upload = .filling locals partUrl numRead)
    (room : numRead < locals.partBytesBuf.length)
    (readable : ∃ bytes inner, halves.writer.inner.pollRead 1 = (.ready bytes, inner)) :
    Changes (P := P) (δ := δ) fmt cache path upstreamCaches (.streaming halves) (.read 1) := by
  obtain ⟨bytes, inner, polled⟩ := readable
  have small : bytes.length ≤ 1 := by
    unfold Pipe.pollRead at polled
    split_ifs at polled <;> cases polled
    · exact Nat.zero_le 1
    · exact List.length_take_le _ _
  obtain ⟨next, hstep⟩ := Upload.exists_fill fmt cache partUrl room small
  rw [← filling] at hstep
  obtain ⟨handle', out, hnext, changed⟩ := changes_upload (P := P) (δ := δ)
    { halves.writer with inner } next (by rintro ⟨⟩) hstep
  refine ⟨handle', out, ?_, changed⟩
  show Handle.read fmt cache halves 1 = _
  rw [Handle.read, polled]
  exact hnext

/-- Writing a byte for which there is room. -/
theorem changes_write {initial : NarUploadState} {log : HandleLog P δ} {halves : Streaming σ E}
    (flowing : Flowing fmt initial log halves) (writing : halves.written = false) (b : UInt8)
    (room : ∃ numBytes, 0 < numBytes ∧
      (halves.writer.pollWrite fmt.sha256 [b] 1).1 = .ready (.ok numBytes)) :
    Changes (P := P) fmt cache path upstreamCaches (.streaming halves) (.write [b] 1) := by
  obtain ⟨numBytes, positive, polled⟩ := room
  rcases HashAndCountWriter.pollWrite_spec flowing.wrote flowing.flow
    (flowing.closed.trans writing) [b] 1 with pending | ⟨n, writer, accepted, -, -, flow, -⟩
  · rw [pending] at polled
    cases polled
  · rw [accepted] at polled
    obtain rfl : n = numBytes := Except.ok.inj (Poll.ready.inj polled)
    refine ⟨.streaming { halves with writer }, [.accepted ([b].take n)], ?_, ?_⟩
    · show (if halves.written then none else some (Handle.write fmt halves [b] 1)) = _
      rw [if_neg ((Bool.not_eq_true _).mpr writing), Handle.write, accepted]
    · -- the pipe holds one more byte
      intro same
      have kept : writer = halves.writer := congrArg Streaming.writer (Handle.streaming.inj same)
      have longer := congrArg List.length (kept ▸ flow.fifo)
      rw [flowing.flow.fifo, List.length_append, List.length_take, List.length_singleton] at longer
      omega

/-- The return of `write_nar`. -/
theorem changes_shutdown {halves : Streaming σ E} (writing : halves.written = false) :
    Changes (P := P) (δ := δ) fmt cache path upstreamCaches (.streaming halves)
      (.shutdown (.ok ())) := by
  refine ⟨_, _, if_neg ((Bool.not_eq_true _).mpr writing), ?_⟩
  show Handle.join fmt _ ≠ _
  rcases join_cases (P := P) (δ := δ) fmt
    { halves with writer := halves.writer.close, written := true } with again | less
  · rw [again]
    intro same
    have written : true = halves.written := congrArg Streaming.written (Handle.streaming.inj same)
    rw [writing] at written
    cases written
  · intro same
    rw [same] at less
    exact absurd less (Nat.lt_irrefl 3)

/-- While the uploader waits for bytes, there are some, or there is room for some, or
`write_nar` returns.

This is where the two halves could wait for each other.  They do not, because a pipe that has
no room has bytes (`KeepsPace.progress`), and a pipe whose writer has been shut down can be read
to its end (`KeepsPace.drains`). -/
theorem exists_changes_filling {initial : NarUploadState} {halves : Streaming σ E}
    (live : Live nix fmt path trace (.streaming halves))
    (flowing : Flowing fmt initial (handleLog trace) halves) {locals : Locals} {partUrl : Url}
    {numRead : ℕ} (filling : halves.upload = .filling locals partUrl numRead)
    (room : numRead < locals.partBytesBuf.length) [Inhabited E] :
    ∃ input, Obliging nix fmt cache path limit (.streaming halves) trace input ∧
      Changes fmt cache path upstreamCaches (.streaming halves) input := by
  have paced := flowing.keepsPace (live.joined halves rfl)
  rcases writing : halves.written with _ | _
  · rcases nar : nix.nar path with _ | bytes
    -- `write_nar` may fail at any time if there is no NAR
    · refine ⟨.writeFails default, ⟨trivial, nar⟩, .returned (.error (.writeNar default)), _,
        if_neg ((Bool.not_eq_true _).mpr writing), ?_⟩
      rintro ⟨⟩
    -- and otherwise it has written some of it
    · obtain ⟨_ | ⟨b, rest⟩, whole⟩ := live.stored.inOrder bytes nar
      · rw [List.append_nil] at whole
        subst whole
        exact ⟨.shutdown (.ok ()), ⟨nar, trivial⟩, changes_shutdown writing⟩
      · rcases paced.progress [b] 1 1 (List.cons_ne_nil b []) Nat.zero_lt_one Nat.zero_lt_one with
          ⟨-, roomy⟩ | readable
        · refine ⟨.write [b] 1, ⟨fun bytes' nar' => ?_, List.cons_ne_nil b [], ?_⟩,
            changes_write flowing writing b roomy⟩
          · obtain rfl : bytes = bytes' := Option.some.inj (nar.symm.trans nar')
            exact ⟨rest, by rw [← whole, List.append_assoc]; rfl⟩
          · intro nothing
            rw [nar] at nothing
            cases nothing
        · exact ⟨.read 1, ⟨trivial, trivial⟩, changes_read filling room readable⟩
  · exact ⟨.read 1, ⟨trivial, trivial⟩,
      changes_read filling room (paced.drains writing 1 Nat.zero_lt_one)⟩

/-- **While the halves run**, one of them can go on.  An uploader that waits for the server can
always be answered, with an error if need be; one that looks at the clock is shown a time at
which its URLs are fresh. -/
theorem exists_changes_streaming {halves : Streaming σ E}
    (live : Live nix fmt path trace (.streaming halves)) [Inhabited E] :
    ∃ input, Obliging nix fmt cache path limit (.streaming halves) trace input ∧
      Changes fmt cache path upstreamCaches (.streaming halves) input := by
  cases live.known with
  | @streaming initial _ flowing =>
      have paced := flowing.keepsPace (live.joined halves rfl)
      rcases upload : halves.upload with
        locals | locals | ⟨locals, partUrl, numRead⟩ | ⟨locals, partUrl, partBytes⟩ | locals |
          ⟨state, result⟩
      · -- the clock is looked at: let it stand still
        refine ⟨.upload (.clock 0), ⟨trivial, ?_⟩, ?_⟩
        · rintro _ ⟨⟩ locals' top received
          have fresh := (live.supplied halves rfl locals' top received).2
          rwa [Nat.zero_add]
        · refine changes_upload halves.writer (Upload.takeUrl locals 0)
            (by rintro ⟨⟩) ?_
          rw [upload]
          rfl
      · -- the server refuses to issue URLs
        refine ⟨.upload (.partUrls (.error default)), ⟨trivial, ?_⟩, ?_⟩
        · rintro _ ⟨⟩ locals' - parts ⟨⟩
        · refine changes_upload halves.writer
            (Upload.receiveUrls fmt.toFormats cache locals (.error default))
            (by rintro ⟨⟩) ?_
          rw [upload]
          rfl
      · -- the buffer of the part is not full
        have room : numRead < locals.partBytesBuf.length := by
          have known := flowing.upload
          rw [upload] at known
          cases known with
          | filling known room => rwa [known.buffer]
        exact exists_changes_filling live flowing upload room
      · -- it refuses the part,
        refine ⟨.upload (.part (.error default) true), ⟨trivial, ?_⟩, ?_⟩
        · rintro _ ⟨⟩
          trivial
        · refine changes_upload halves.writer
            (Upload.receiveEtag fmt.toFormats cache locals partUrl partBytes
              (.error default) true) (by rintro ⟨⟩) ?_
          rw [upload]
          rfl
      · -- or the completion
        refine ⟨.upload (.complete (.error default)), ⟨trivial, ?_⟩, ?_⟩
        · rintro _ ⟨⟩
          trivial
        · refine changes_upload halves.writer
            (Upload.receiveCompletion fmt.toFormats cache locals (.error default))
            (by rintro ⟨⟩) ?_
          rw [upload]
          rfl
      · exact absurd upload (paced.uploading state result)

variable (cache upstreamCaches limit) in
/-- **Until the path has been handled, there is something to do.**  One case for each state of the
handler: the store answers, or a server does, and the answer may be a failure. -/
theorem Live.advances (live : Live nix fmt path trace handle) [Inhabited E] :
    handle.Over ∨ ∃ input, Obliging nix fmt cache path limit handle trace input ∧
      Changes fmt cache path upstreamCaches handle input := by
  rcases handle with _ | check | _ | halves | ⟨state, narHash, narSize⟩ | ⟨state, narinfo⟩ | _ | _
  · exact .inr ⟨.start, ⟨trivial, trivial⟩, _, _, rfl, by rintro ⟨⟩⟩
  · obtain ⟨input, changes⟩ := changes_check fmt cache path upstreamCaches (live.waiting check rfl)
    exact .inr ⟨.check input, ⟨trivial, trivial⟩, changes⟩
  · exact .inr ⟨.initiated (.error default), ⟨trivial, trivial⟩, _, _, rfl, by rintro ⟨⟩⟩
  · exact .inr (exists_changes_streaming live)
  · refine .inr ⟨.pathInfos (nix.pathInfos path), ⟨rfl, trivial⟩, _, _, rfl, ?_⟩
    split <;> rintro ⟨⟩
  · exact .inr ⟨.narinfoSent (.error default), ⟨trivial, trivial⟩, _, _, rfl, by rintro ⟨⟩⟩
  · exact .inl trivial
  · exact .inl trivial

end Liveness

/-- **Handling a path comes to an end**, whatever the schedule and the answers.

The measure is on the states of the run and on its trace, because the bytes that are still
to be written are those of the NAR less those that have been.  Every input that the
environment may give either lowers it or is a poll that changes nothing; and in every state
that is not over there is one that lowers it, so the bound is never the bound of a run
that is stuck. -/
theorem handle_store_path_completes [Inhabited E] (limit : ℕ) :
    (handleMachine fmt cache path upstreamCaches).Completes
      (Obliging nix fmt cache path limit) (Changes fmt cache path upstreamCaches)
      (fun handle _ => handle.Over) (.called : Handle P σ δ E) [] := by
  refine Machine.completes wellFounded_lt
    (fun handle trace => Handle.load nix path limit trace handle)
    (I := fun handle trace => Live nix fmt path trace handle)
    (fun handle trace input handle' out live obliging hstep => live.step obliging hstep)
    ?_ ?_ live_called
  · intro handle trace input handle' out live obliging hstep
    refine (live.load_lt obliging hstep).imp_left ?_
    rintro ⟨unchanged, rfl, rfl⟩
    exact ⟨unchanged, by rw [List.append_nil]⟩
  · intro handle trace live
    refine (live.advances cache upstreamCaches limit).imp_right ?_
    rintro ⟨input, obliging, handle', out, hstep, changed⟩
    exact ⟨input, obliging, ⟨handle', out, hstep, changed⟩, Option.isSome_iff_exists.mpr ⟨_, hstep⟩⟩

end HandleStorePath

end CacheAction
