import CacheAction.StorePath.Handle
import CacheAction.Sub60.Assembly

/-!
# What has been pushed when a NARInfo is published

`HandleLog` reads back from a trace what the upload has assembled, which bytes
the pipe has accepted, how `write_nar` has returned, and what has been
published.  `Known` relates it to the state of `handle_store_path`.  Its core is
`Flowing`, for the time in which the two halves run: the bytes accepted by the
pipe are those read by the uploader, followed by the ones under way, and the
writer has hashed and counted them.

Once the uploader has come to the end of the stream there is nothing under way
any more, and what has been uploaded is what has been hashed (`Uploaded`).

### Two halves, three equations

The writer and the uploader share the pipe only.  What has been accepted, what has been read
and what has been uploaded are therefore three lists of bytes with an equation between each
two of them that some module knows by itself: the writer has hashed what the pipe has accepted
(`HashAndCountWriter.Wrote`), the pipe delivers what it has accepted, in order (`Pipe.Flow`),
and the upload is made of what has been read (`Assembled`).  `Flowing` puts them side by side
without mixing them, so that a step of one half changes one of the three and leaves the others
as they are.  They are composed once, when both halves have succeeded (`Flowing.uploaded`).

### What a failure leaves

`try_join` returns as soon as one half has failed, and drops the other one where it is.  The
dangerous case would be a writer that fails after the uploader has completed the upload.  It
cannot happen: the uploader completes nothing before the end of the stream, the pipe has an end
only once the writer has been shut down, and that is the last thing the writer does
(`Flowing.uncompleted_of_failed`, `Flowing.writerFails`).
-/

namespace CacheAction

namespace HandleStorePath

open Sub60

variable {P σ δ E : Type}

/-! ## Reading a trace -/

/-- What has been done so far. -/
@[ext] structure HandleLog (P δ : Type) where
  upload : UploadLog := {}
  /-- The bytes that the pipe has accepted. -/
  accepted : List UInt8 := []
  /-- The uploads that have been initiated. -/
  initiated : List NarUploadState := []
  /-- What `write_nar` has returned. -/
  writer : List Bool := []
  /-- The NARInfos published, with the calls that publish them. -/
  publications : List (NarInfo P δ × Call) := []
  /-- Whether a NARInfo has been published successfully. -/
  published : Bool := false

/-- The outputs of the uploader.  The log of the upload is read from these, so that what is
proved of an upload by itself (`CacheAction.Sub60.Assembly`) is said of a trace of the
handler without a second definition. -/
def uploads (trace : List (HandleObs P δ)) : List UploadObs :=
  trace.filterMap fun
    | .upload o => some o
    | _ => none

/-- The log of a trace.  Every field is read from the outputs one by one, and so the log of an
appended trace is the sum of two logs (`handleLog_append`): a step says what it adds. -/
def handleLog (trace : List (HandleObs P δ)) : HandleLog P δ where
  upload := uploadLog (uploads trace)
  accepted := trace.flatMap fun
    | .accepted bytes => bytes
    | _ => []
  initiated := trace.filterMap fun
    | .initiated state => some state
    | _ => none
  writer := trace.filterMap fun
    | .writerReturned ok => some ok
    | _ => none
  publications := trace.filterMap fun
    | .publish narinfo call => some (narinfo, call)
    | _ => none
  published := trace.any fun
    | .published => true
    | _ => false

namespace HandleLog

instance : Append (HandleLog P δ) where
  append first second :=
    { upload := first.upload ++ second.upload
      accepted := first.accepted ++ second.accepted
      initiated := first.initiated ++ second.initiated
      writer := first.writer ++ second.writer
      publications := first.publications ++ second.publications
      published := first.published || second.published }

theorem append_mk (log : HandleLog P δ) (upload accepted initiated writer publications published) :
    log ++ ⟨upload, accepted, initiated, writer, publications, published⟩ =
      ⟨log.upload ++ upload, log.accepted ++ accepted, log.initiated ++ initiated,
        log.writer ++ writer, log.publications ++ publications, log.published || published⟩ := rfl

/-- Outputs that the log does not read leave it as it is. -/
theorem append_nothing (log : HandleLog P δ) : log ++ {} = log := by
  simp only [append_mk, UploadLog.append_nothing, List.append_nil, Bool.or_false]

/-- The writer, the reader of the pipe or the upload of a part has failed. -/
def Failed (log : HandleLog P δ) : Prop :=
  false ∈ log.writer ∨ log.upload.failed = true

/-- Nothing has been done to complete the upload that has been initiated.  Its parts may have been
put; the server keeps these apart until the upload is completed. -/
def Uncompleted (log : HandleLog P δ) : Prop :=
  ∃ initial, log.initiated = [initial] ∧ Unfinished initial log.upload

end HandleLog

theorem uploads_append (trace out : List (HandleObs P δ)) :
    uploads (trace ++ out) = uploads trace ++ uploads out :=
  List.filterMap_append

theorem uploads_upload (out : List UploadObs) :
    uploads (out.map .upload : List (HandleObs P δ)) = out := by
  induction out with
  | nil => rfl
  | cons o rest ih => exact congrArg (o :: ·) ih

theorem uploads_check (out : List CheckObs) :
    uploads (out.map .check : List (HandleObs P δ)) = [] := by
  induction out with
  | nil => rfl
  | cons o rest ih => exact ih

/-- The log of a step is added to the log of the trace. -/
theorem handleLog_append (trace out : List (HandleObs P δ)) :
    handleLog (trace ++ out) = handleLog trace ++ handleLog out := by
  ext1
  · show uploadLog (uploads (trace ++ out)) = _
    rw [uploads_append, uploadLog_append]
    rfl
  · exact List.flatMap_append
  · exact List.filterMap_append
  · exact List.filterMap_append
  · exact List.filterMap_append
  · exact List.any_append

theorem handleLog_uploads (out : List UploadObs) :
    handleLog (out.map .upload : List (HandleObs P δ)) = { upload := uploadLog out } := by
  induction out with
  | nil => rfl
  | cons o rest ih =>
      rw [List.map_cons, ← List.singleton_append, handleLog_append, ih, uploadLog_cons]
      rfl

theorem handleLog_check (out : List CheckObs) :
    handleLog (out.map .check : List (HandleObs P δ)) = {} := by
  induction out with
  | nil => rfl
  | cons o rest ih =>
      rw [List.map_cons, ← List.singleton_append, handleLog_append, ih]
      rfl

/-- The output is a request that changes what the server stores or has in
progress. -/
def HandleObs.mutates : HandleObs P δ → Bool
  | .check o => !o.readOnly
  | .called call => !call.readOnly
  | .upload (.called call) => !call.readOnly
  | .publish _ _ => true
  | _ => false

/-! ## The state against the log -/

variable (fmt : HandleFormats P σ δ E) (cache : Sub60Cache) (path : P) (upstreamCaches : List Url)

/-- Nothing has been sent that changes anything.  It is what a skipped path leaves behind. -/
structure Untouched (trace : List (HandleObs P δ)) : Prop where
  log : handleLog trace = {}
  readOnly : ∀ o ∈ trace, o.mutates = false

/-- While the two halves run.  The writer is shut down in the step in which `write_nar`
returns, so that the pipe is closed exactly if that half has ended (`closed`).

`flow` is where the halves meet: between what the pipe has accepted and what the uploader has
read, in this order, are the bytes that the pipe holds.  `upload` and `wrote` are the
invariants of either half by itself. -/
structure Flowing (initial : NarUploadState) (log : HandleLog P δ) (halves : Streaming σ E) :
    Prop where
  initiated : log.initiated = [initial]
  upload : Assembled initial log.upload halves.upload
  flow : halves.writer.inner.Flow log.accepted log.upload.bytes log.upload.eof
  wrote : halves.writer.Wrote fmt.sha256 log.accepted
  closed : halves.writer.inner.closed = halves.written
  writer : log.writer = if halves.written then [true] else []
  publications : log.publications = []
  published : log.published = false

/-- Once both halves have succeeded.  `whole` is what all of this is for: the bytes that the writer
has hashed and counted are those of the parts. -/
structure Uploaded (initial : NarUploadState) (log : HandleLog P δ) : Prop where
  initiated : log.initiated = [initial]
  complete : Complete initial log.upload
  completed : log.upload.completed = true
  whole : log.accepted = log.upload.assembled
  writer : log.writer = [true]

/-- The hash and the size are those of the bytes accepted. -/
structure Measured (log : HandleLog P δ) (hash : δ) (size : NonZero 64) : Prop where
  hash : hash = fmt.sha256.digest log.accepted
  size : size.val = log.accepted.length

/-- The NARInfo and the call that publishes it.  The NAR is not compressed, so what is said of
the NAR is said of the file. -/
structure Publishing (initial : NarUploadState) (log : HandleLog P δ) (narinfo : NarInfo P δ)
    (call : Call) : Prop where
  uploaded : Uploaded initial log
  nar : Measured fmt log narinfo.narHash narinfo.narSize
  file : Measured fmt log narinfo.fileHash narinfo.fileSize
  request : call =
    .uploadNarinfo (fmt.narinfoFilename path) (fmt.printNarInfo narinfo) initial.uploadId

/-- The state of `handle_store_path` against the log of the run.

What is known in a state from which the handler has returned is what its caller is told by
the result: a number of bytes means a publication that has succeeded, `None` means that nothing
has been changed, and an error means that nothing has been published with success. -/
inductive Known (trace : List (HandleObs P δ)) : Handle P σ δ E → Prop where
  | called (nothing : trace = []) : Known trace .called
  | checking {check} (untouched : Untouched trace) : Known trace (.checking check)
  | initiating (log : handleLog trace = {}) : Known trace .initiating
  | streaming {initial halves} (flowing : Flowing fmt initial (handleLog trace) halves) :
      Known trace (.streaming halves)
  | gettingInfos {initial state narHash narSize} (same : SameUpload initial state)
      (uploaded : Uploaded initial (handleLog trace))
      (measured : Measured fmt (handleLog trace) narHash narSize)
      (publications : (handleLog trace).publications = [])
      (published : (handleLog trace).published = false) :
      Known trace (.gettingInfos state narHash narSize)
  | uploadingNarinfo {initial state narinfo call}
      (publishing : Publishing fmt path initial (handleLog trace) narinfo call)
      (publications : (handleLog trace).publications = [(narinfo, call)])
      (published : (handleLog trace).published = false) :
      Known trace (.uploadingNarinfo state narinfo)
  | pushed {initial narinfo call numBytes}
      (publishing : Publishing fmt path initial (handleLog trace) narinfo call)
      (publications : (handleLog trace).publications = [(narinfo, call)])
      (published : (handleLog trace).published = true)
      (size : numBytes = narinfo.narSize.saturatingAdd (fmt.printNarInfo narinfo).utf8ByteSize) :
      Known trace (.returned (.ok (some numBytes)))
  | skipped (said : .checked false ∈ trace) (untouched : Untouched trace) :
      Known trace (.returned (.ok none))
  | failed {e} (unfinished : (handleLog trace).Failed →
        (handleLog trace).Uncompleted ∧ (handleLog trace).publications = [])
      (publications : (handleLog trace).publications.length ≤ 1)
      (published : (handleLog trace).published = false) :
      Known trace (.returned (.error e))
  | panicked {panic} (untouched : Untouched trace) : Known trace (.panicked panic)

section Steps

variable {fmt cache path upstreamCaches} {initial : NarUploadState}
  {trace out : List (HandleObs P δ)} {handle handle' : Handle P σ δ E} {halves : Streaming σ E}

/-- A failure before anything has been published. -/
theorem failed_unpublished {e : HandlePathError E}
    (unfinished : (handleLog trace).Failed → (handleLog trace).Uncompleted)
    (publications : (handleLog trace).publications = [])
    (published : (handleLog trace).published = false) :
    Known fmt path trace (.returned (.error e)) := by
  refine .failed (fun failed => ⟨unfinished failed, publications⟩) ?_ published
  rw [publications]
  exact Nat.zero_le _

/-- What has not begun has not failed either. -/
theorem not_failed_of_untouched (log : handleLog trace = {}) : ¬ (handleLog trace).Failed := by
  simp [log, HandleLog.Failed]

/-- A failure before anything has been done. -/
theorem failed_untouched (log : handleLog trace = {}) {e : HandlePathError E} :
    Known fmt path trace (.returned (.error e)) :=
  failed_unpublished (fun failed => absurd failed (not_failed_of_untouched log)) (by rw [log])
    (by rw [log])

/-- After a complete upload, nothing that counts as a failure has happened. -/
theorem Uploaded.not_failed {log : HandleLog P δ} (uploaded : Uploaded initial log) :
    ¬ log.Failed := by
  rintro (writer | upload)
  · rw [uploaded.writer] at writer
    simp at writer
  · rw [uploaded.complete.unfailed] at upload
    contradiction

/-- A publication changes nothing of what it is about. -/
theorem Publishing.update {log : HandleLog P δ} {narinfo : NarInfo P δ} {call : Call}
    (publishing : Publishing fmt path initial log narinfo call)
    (publications : List (NarInfo P δ × Call)) (published : Bool) :
    Publishing fmt path initial { log with publications, published } narinfo call := by
  obtain ⟨⟨initiated, complete, completed, whole, writer⟩, nar, file, request⟩ := publishing
  exact
    { uploaded := ⟨initiated, complete, completed, whole, writer⟩
      nar := ⟨nar.hash, nar.size⟩
      file := ⟨file.hash, file.size⟩
      request }

/-- Outputs that the log does not read leave everything known of it. -/
theorem handleLog_silent (silent : handleLog out = {}) :
    handleLog (trace ++ out) = handleLog trace := by
  rw [handleLog_append, silent, HandleLog.append_nothing]

/-! ### The two halves -/

/-- The upload has been initiated: the pipe is empty, and nothing has been read or hashed. -/
theorem flowing_start (state : NarUploadState) :
    Flowing fmt state ({ initiated := [state] } : HandleLog P δ)
      { writer := .new fmt.sha256 (.new narStreamBufferSize), written := false,
        upload := .start state } where
  initiated := rfl
  upload := assembled_start state
  flow := Pipe.flow_new _
  wrote := HashAndCountWriter.wrote_new _
  closed := rfl
  writer := rfl
  publications := rfl
  published := rfl

/-- The upload has succeeded: the writer has finished, and everything that the
pipe has accepted has been uploaded. -/
theorem Flowing.uploaded {log : HandleLog P δ} (flowing : Flowing fmt initial log halves)
    (complete : Complete initial log.upload) (completed : log.upload.completed = true) :
    halves.written = true ∧ Uploaded initial log ∧
      halves.writer.numBytesWritten = log.accepted.length := by
  -- the reader has been told of the end: the pipe is closed and empty
  have flow := flowing.flow
  rw [complete.ended] at flow
  have written : halves.written = true := flowing.closed.symm.trans (flow.ended rfl).1
  have whole : log.accepted = log.upload.assembled := by
    rw [← flow.complete, complete.bytes]
  refine ⟨written, ⟨flowing.initiated, complete, completed, whole, ?_⟩, ?_⟩
  · rw [flowing.writer, written, if_pos rfl]
  · rw [flowing.wrote.counted, whole]
    exact Nat.mod_eq_of_lt complete.length_assembled_lt

/-- While the two halves run, no failure goes with a completed upload. -/
theorem Flowing.uncompleted_of_failed {log : HandleLog P δ}
    (flowing : Flowing fmt initial log halves) (failed : log.Failed) : log.Uncompleted := by
  rcases failed with writer | upload
  · rw [flowing.writer] at writer
    split at writer <;> simp at writer
  · exact ⟨initial, flowing.initiated, flowing.upload.unfinished_of_failed upload⟩

/-- What `try_join` makes of the two halves.  It is called after a step of either of them, so the
three ends that it can find are settled here once: the upload has failed, both have succeeded,
or it goes on. -/
theorem Flowing.join (flowing : Flowing fmt initial (handleLog trace) halves) :
    Known fmt path trace (Handle.join fmt halves) := by
  unfold Handle.join
  split
  · rename_i state e returned
    exact failed_unpublished flowing.uncompleted_of_failed flowing.publications flowing.published
  · rename_i state returned
    have assembled := flowing.upload
    rw [returned] at assembled
    cases assembled with
    | returned same complete completed =>
        -- the uploader cannot succeed before `write_nar` has
        obtain ⟨written, uploaded, counted⟩ := flowing.uploaded complete completed
        rw [if_pos written, Handle.finish]
        split
        · exact failed_unpublished flowing.uncompleted_of_failed flowing.publications
            flowing.published
        · rename_i narSize size
          refine .gettingInfos same uploaded ⟨flowing.wrote.hashed.finalize, ?_⟩
            flowing.publications flowing.published
          rw [← counted]
          exact NonZero.val_of_new? size
  · exact .streaming flowing

/-- A write of `write_nar`: the pipe takes some bytes, and the writer hashes these and no others,
or it is full and nothing happens. -/
theorem Flowing.write (flowing : Flowing fmt initial (handleLog trace) halves)
    (writing : halves.written = false) (buf : List UInt8) (limit : ℕ) :
    Known fmt path (trace ++ (Handle.write (P := P) fmt halves buf limit).2)
      (Handle.write fmt halves buf limit).1 := by
  have isOpen := flowing.closed.trans writing
  rcases HashAndCountWriter.pollWrite_spec flowing.wrote flowing.flow isOpen buf limit with
    pending | ⟨numBytes, next, accepted, -, wrote, flow, stillOpen⟩
  · rw [Handle.write, pending]
    show Known fmt path (trace ++ []) _
    rw [List.append_nil]
    exact .streaming flowing
  · rw [Handle.write, accepted]
    show Known fmt path (trace ++ [.accepted (buf.take numBytes)]) _
    have flowing : Flowing fmt initial
        (handleLog trace ++ { accepted := buf.take numBytes ++ [] })
        { halves with writer := next } := by
      simp only [HandleLog.append_mk, UploadLog.append_nothing, List.append_nil, Bool.or_false]
      exact { flowing with flow, wrote, closed := stillOpen.trans writing.symm }
    exact .streaming (by rw [handleLog_append]; exact flowing)

/-- When `write_nar` fails, the uploader has not been told of the end of the
stream, and has not completed the upload. -/
theorem Flowing.writerFails (flowing : Flowing fmt initial (handleLog trace) halves)
    (writing : halves.written = false) (e : E) :
    Known fmt path (trace ++ [.writerReturned false]) (.returned (.error (.writeNar e))) := by
  have uncompleted : (handleLog trace).Uncompleted :=
    ⟨initial, flowing.initiated, flowing.upload.unfinished_of_reading
      (flowing.flow.open_of_reading (flowing.closed.trans writing))⟩
  have log : handleLog (trace ++ [.writerReturned false]) =
      handleLog trace ++ ({ writer := [false] } : HandleLog P δ) := handleLog_append _ _
  simp only [HandleLog.append_mk, UploadLog.append_nothing, List.append_nil, Bool.or_false] at log
  apply failed_unpublished
  · rw [log]
    exact fun _ => uncompleted
  · rw [log]
    exact flowing.publications
  · rw [log]
    exact flowing.published

/-- The return of `write_nar`.  With success the pipe is closed before the reader can see its
end. -/
theorem Flowing.shutdown (flowing : Flowing fmt initial (handleLog trace) halves)
    (writing : halves.written = false) (result : Except E Unit) :
    Known fmt path (trace ++ (Handle.shutdown (P := P) fmt halves result).2)
      (Handle.shutdown fmt halves result).1 := by
  rcases result with e | ⟨⟩
  · exact flowing.writerFails writing e
  · have log : handleLog (trace ++ [.writerReturned true]) =
        handleLog trace ++ ({ writer := [true] } : HandleLog P δ) := handleLog_append _ _
    have closed : Flowing fmt initial (handleLog (trace ++ [.writerReturned true]))
        { halves with writer := halves.writer.close, written := true } := by
      rw [log]
      simp only [HandleLog.append_mk, UploadLog.append_nothing, List.append_nil, Bool.or_false]
      exact
        { flowing with
          flow := flowing.flow.close
          wrote := ⟨flowing.wrote.hashed, flowing.wrote.counted⟩
          closed := rfl
          writer := by
            show _ ++ [true] = _
            rw [flowing.writer, writing]
            rfl }
    exact closed.join

/-- A step of the uploader, after the pipe has delivered what it reads. -/
theorem Flowing.uploadStep (flowing : Flowing fmt initial (handleLog trace) halves)
    {inner : Pipe UInt8} {input : UploadInput E}
    (flow : inner.Flow (handleLog trace).accepted
      ((handleLog trace).upload.bytes ++ input.delivered)
      ((handleLog trace).upload.eof || input.ends))
    (closed : inner.closed = halves.written)
    (h : Handle.uploadStep fmt cache { halves with writer := { halves.writer with inner } } input =
      some (handle', out)) : Known fmt path (trace ++ out) handle' := by
  obtain ⟨⟨upload, outputs⟩, hstep, hnext⟩ := Option.map_eq_some_iff.mp h
  obtain ⟨rfl, rfl⟩ := Prod.ext_iff.mp hnext
  obtain ⟨bytes, eof, -⟩ := Upload.step_moves hstep
  have log : handleLog (trace ++ outputs.map .upload) =
      handleLog trace ++ ({ upload := uploadLog outputs } : HandleLog P δ) := by
    rw [handleLog_append, handleLog_uploads]
  have next : Flowing fmt initial (handleLog (trace ++ outputs.map .upload))
      { halves with writer := { halves.writer with inner }, upload } := by
    rw [log]
    simp only [HandleLog.append_mk, List.append_nil, Bool.or_false]
    exact
      { flowing with
        upload := flowing.upload.step hstep
        flow := by
          show inner.Flow _ (_ ++ (uploadLog outputs).bytes) (_ || (uploadLog outputs).eof)
          rw [bytes, eof]
          exact flow
        wrote := ⟨flowing.wrote.hashed, flowing.wrote.counted⟩
        closed }
  exact next.join

/-- An input that is not a read delivers nothing. -/
theorem Flowing.uploadStep_of_silent (flowing : Flowing fmt initial (handleLog trace) halves)
    {input : UploadInput E} (delivered : input.delivered = []) (ends : input.ends = false)
    (h : Handle.uploadStep fmt cache halves input = some (handle', out)) :
    Known fmt path (trace ++ out) handle' := by
  refine flowing.uploadStep ?_ flowing.closed h
  rw [delivered, ends, List.append_nil, Bool.or_false]
  exact flowing.flow

/-- A read of the uploader, which takes bytes from the pipe, finds its end, or waits. -/
theorem Flowing.read (flowing : Flowing fmt initial (handleLog trace) halves) (limit : ℕ)
    (h : Handle.read fmt cache halves limit = some (handle', out)) :
    Known fmt path (trace ++ out) handle' := by
  unfold Handle.read at h
  rcases flowing.flow.pollRead limit with
    pending | ⟨data, next, delivered, nonempty, flow, closed⟩ | ⟨ended, flow⟩
  · rw [pending] at h
    exact flowing.uploadStep_of_silent rfl rfl h
  -- the next bytes of the queue
  · rw [delivered] at h
    have ends : (UploadInput.read (.ready (.ok data)) : UploadInput E).ends = false := by
      rcases data with _ | ⟨b, data⟩
      · exact absurd rfl nonempty
      · rfl
    refine flowing.uploadStep ?_ (closed.trans flowing.closed) h
    rw [ends, Bool.or_false]
    exact flow
  -- the queue is empty, and `write_nar` has shut its writer down
  · rw [ended] at h
    refine flowing.uploadStep ?_ flowing.closed h
    show halves.writer.inner.Flow _ (_ ++ []) (_ || true)
    rw [List.append_nil, Bool.or_true]
    exact flow

/-! ### Before and after the two halves -/

/-- The check says that there is nothing to push. -/
theorem Untouched.skip (untouched : Untouched trace) (push : Bool) :
    Untouched (trace ++ [.checked push]) := by
  refine ⟨(handleLog_silent rfl).trans untouched.log, ?_⟩
  exact List.forall_mem_append.mpr ⟨untouched.readOnly, List.forall_mem_singleton.mpr rfl⟩

/-- After the check an upload is asked for, or the path is done with. -/
theorem known_afterCheck (untouched : Untouched trace) (check : Check E) :
    Known fmt path (trace ++ (Handle.afterCheck fmt path check).2)
      (Handle.afterCheck fmt path check).1 := by
  unfold Handle.afterCheck
  split
  · refine .initiating ?_
    exact (handleLog_silent rfl).trans untouched.log
  · exact .skipped (List.mem_append_right _ (List.mem_singleton.mpr rfl)) (untouched.skip _)
  · rw [List.append_nil]
    exact failed_untouched untouched.log
  · rw [List.append_nil]
    exact .panicked untouched
  · rw [List.append_nil]
    exact .checking untouched

/-- The check only asks. -/
theorem Untouched.check (untouched : Untouched trace) {outputs : List CheckObs}
    (readOnly : ∀ o ∈ outputs, o.readOnly = true) :
    Untouched (trace ++ (outputs.map .check : List (HandleObs P δ))) := by
  refine ⟨(handleLog_silent (handleLog_check outputs)).trans untouched.log, ?_⟩
  intro o member
  rcases List.mem_append.mp member with before | now
  · exact untouched.readOnly o before
  · obtain ⟨observed, isOutput, rfl⟩ := List.mem_map.mp now
    show (!observed.readOnly) = false
    rw [readOnly observed isOutput]
    rfl

/-- The server has answered to the initiation. -/
theorem known_receiveState (nothing : handleLog trace = {}) (sent : Sent E) :
    Known fmt path (trace ++ (Handle.receiveState fmt cache path sent).2)
      (Handle.receiveState fmt cache path sent).1 := by
  unfold Handle.receiveState
  split
  · rw [List.append_nil]
    exact failed_untouched nothing
  · rename_i state _
    have log : handleLog (trace ++ [.initiated state]) = { initiated := [state] } := by
      rw [handleLog_append, nothing]
      rfl
    exact .streaming (by rw [log]; exact flowing_start state)

/-- Both pairs of a hash and a size in the NARInfo are the ones that have been measured. -/
theorem narInfo_measured {log : HandleLog P δ} {narHash : δ} {narSize : NonZero 64}
    (measured : Measured fmt log narHash narSize) {infos : PathInfos E} {narinfo : NarInfo P δ}
    (h : Handle.narInfo path narHash narSize infos = .ok narinfo) :
    Measured fmt log narinfo.narHash narinfo.narSize ∧
      Measured fmt log narinfo.fileHash narinfo.fileSize := by
  obtain ⟨references, deriver, signatures, contentAddress⟩ := infos
  rcases references with e | references
  · cases h
  rcases deriver with e | deriver
  · cases h
  rcases signatures with e | signatures
  · cases h
  rcases contentAddress with e | contentAddress
  · cases h
  cases h
  exact ⟨measured, measured⟩

/-- The store has answered: it has failed, or the NARInfo is complete and is published. -/
theorem receiveInfos_publishes {state : NarUploadState} {narHash : δ} {narSize : NonZero 64}
    (same : SameUpload initial state) (uploaded : Uploaded initial (handleLog trace))
    (measured : Measured fmt (handleLog trace) narHash narSize) (infos : Except E (PathInfos E)) :
    (∃ e, Handle.receiveInfos fmt path state narHash narSize infos =
      (.returned (.error (.getPathInfos e)), ([] : List (HandleObs P δ)))) ∨
    ∃ narinfo call, Handle.receiveInfos fmt path state narHash narSize infos =
        ((.uploadingNarinfo state narinfo : Handle P σ δ E), [.publish narinfo call]) ∧
      Publishing fmt path initial (handleLog trace) narinfo call := by
  unfold Handle.receiveInfos
  split
  · rename_i e _
    exact Or.inl ⟨e, rfl⟩
  · rename_i narinfo answer
    rcases infos with e | infos
    · cases answer
    obtain ⟨nar, file⟩ := narInfo_measured measured answer
    refine Or.inr ⟨narinfo, _, rfl, uploaded, nar, file, ?_⟩
    rw [Handle.narinfoCall, same.uploadId]

/-- What the store has answered decides whether a NARInfo is published. -/
theorem known_receiveInfos {state : NarUploadState} {narHash : δ} {narSize : NonZero 64}
    (same : SameUpload initial state) (uploaded : Uploaded initial (handleLog trace))
    (measured : Measured fmt (handleLog trace) narHash narSize)
    (publications : (handleLog trace).publications = [])
    (published : (handleLog trace).published = false) (infos : Except E (PathInfos E)) :
    Known fmt path (trace ++ (Handle.receiveInfos fmt path state narHash narSize infos).2)
      (Handle.receiveInfos fmt path state narHash narSize infos).1 := by
  rcases receiveInfos_publishes same uploaded measured infos with
    ⟨e, failed⟩ | ⟨narinfo, call, answer, publishing⟩
  · rw [failed]
    show Known fmt path (trace ++ []) _
    rw [List.append_nil]
    exact failed_unpublished (fun failed => absurd failed uploaded.not_failed) publications
      published
  · rw [answer]
    have log : handleLog (trace ++ [.publish narinfo call]) =
        { handleLog trace with publications := [(narinfo, call)] } := by
      rw [handleLog_append]
      show handleLog trace ++ ({ publications := [(narinfo, call)] } : HandleLog P δ) = _
      simp only [HandleLog.append_mk, UploadLog.append_nothing, List.append_nil, Bool.or_false,
        publications, List.nil_append]
    exact .uploadingNarinfo (by rw [log]; exact publishing.update _ _) (by rw [log])
      (by rw [log]; exact published)

/-- The server has answered to the NARInfo. -/
theorem known_receivePublication {state : NarUploadState} {narinfo : NarInfo P δ} {call : Call}
    (publishing : Publishing fmt path initial (handleLog trace) narinfo call)
    (publications : (handleLog trace).publications = [(narinfo, call)])
    (published : (handleLog trace).published = false) (sent : Sent E) :
    Known fmt path (trace ++ (Handle.receivePublication fmt cache path state narinfo sent).2)
      (Handle.receivePublication fmt cache path state narinfo sent).1 := by
  unfold Handle.receivePublication
  split
  · rw [List.append_nil]
    refine .failed (fun failed => absurd failed publishing.uploaded.not_failed) ?_ published
    rw [publications]
    exact Nat.le_refl _
  · rename_i narinfoSize answer
    have size := (uploadNarinfo_eq_ok.mp answer).2
    have log : handleLog (trace ++ [.published]) =
        handleLog trace ++ ({ published := true } : HandleLog P δ) := handleLog_append _ _
    simp only [HandleLog.append_mk, UploadLog.append_nothing, List.append_nil, Bool.or_true] at log
    exact .pushed (by rw [log]; exact publishing.update _ _) (by rw [log]; exact publications)
      (by rw [log]) (by rw [size])

/-- **Every step keeps what is known of the run.**  In every state only a few inputs are possible
(`Handle.step_spec`), and each has its own lemma above. -/
theorem Known.step {input : HandleInput E} (known : Known fmt path trace handle)
    (h : Handle.step fmt cache path upstreamCaches handle input = some (handle', out)) :
    Known fmt path (trace ++ out) handle' := by
  have step := Handle.step_spec _ _ _ _ h
  cases known with
  | called nothing =>
      cases step with
      | start =>
          subst nothing
          refine .checking ⟨handleLog_check _, ?_⟩
          rintro o (_ | ⟨_, ⟨⟩⟩)
          rfl
  | checking untouched =>
      cases step with
      | check done =>
          rw [← List.append_assoc]
          exact known_afterCheck (untouched.check (Check.step_readOnly _ _ _ _ done)) _
  | initiating log =>
      cases step with
      | initiated => exact known_receiveState log _
  | @streaming initial halves flowing =>
      cases step with
      | write writing => exact flowing.write writing _ _
      | writeFails writing => exact flowing.writerFails writing _
      | shutdown writing => exact flowing.shutdown writing _
      | read done => exact flowing.read _ done
      | readFails done => exact flowing.uploadStep_of_silent rfl rfl done
      | @upload _ input _ _ other done =>
          -- reads come from the pipe, anything else delivers nothing
          cases input with
          | read polled => exact absurd rfl (other polled)
          | _ => exact flowing.uploadStep_of_silent rfl rfl done
  | gettingInfos same uploaded measured publications published =>
      cases step with
      | pathInfos => exact known_receiveInfos same uploaded measured publications published _
  | uploadingNarinfo publishing publications published =>
      cases step with
      | narinfoSent => exact known_receivePublication publishing publications published _
  | pushed => cases step
  | skipped => cases step
  | failed => cases step
  | panicked => cases step

/-! ### Where the NARInfo is published -/

/-- A step of the upload shows nothing else. -/
theorem uploadStep_outputs {input : UploadInput E}
    (h : Handle.uploadStep fmt cache halves input = some (handle', out)) {o : HandleObs P δ}
    (member : o ∈ out) : ∃ u, o = .upload u := by
  obtain ⟨next, -, hnext⟩ := Option.map_eq_some_iff.mp h
  obtain ⟨-, rfl⟩ := Prod.ext_iff.mp hnext
  obtain ⟨u, -, rfl⟩ := List.mem_map.mp member
  exact ⟨u, rfl⟩

/-- Nothing is published but by the step that gets the infos. -/
theorem publish_of_step {input : HandleInput E}
    (h : Handle.step fmt cache path upstreamCaches handle input = some (handle', out))
    {narinfo : NarInfo P δ} {call : Call} (member : .publish narinfo call ∈ out) :
    ∃ state narHash narSize infos, handle = .gettingInfos state narHash narSize ∧
      Handle.receiveInfos fmt path state narHash narSize infos = (handle', out) := by
  cases Handle.step_spec _ _ _ _ h with
  | start =>
      obtain ⟨o, -, same⟩ := List.mem_map.mp member
      cases same
  | check done =>
      rcases List.mem_append.mp member with sent | after
      · obtain ⟨o, -, same⟩ := List.mem_map.mp sent
        cases same
      · unfold Handle.afterCheck at after
        split at after <;> simp at after
  | initiated =>
      unfold Handle.receiveState at member
      split at member <;> simp at member
  | write writing =>
      unfold Handle.write at member
      split at member <;> simp at member
  | writeFails writing => simp at member
  | @shutdown halves result writing =>
      rcases result with e | ⟨⟩ <;> simp [Handle.shutdown] at member
  | read done =>
      unfold Handle.read at done
      split at done <;> obtain ⟨_, ⟨⟩⟩ := uploadStep_outputs done member
  | readFails done => obtain ⟨_, ⟨⟩⟩ := uploadStep_outputs done member
  | upload other done => obtain ⟨_, ⟨⟩⟩ := uploadStep_outputs done member
  | pathInfos => exact ⟨_, _, _, _, rfl, rfl⟩
  | narinfoSent =>
      unfold Handle.receivePublication at member
      split at member <;> simp at member

/-- **A NARInfo is published only when the upload is complete**, and describes it; the
step that publishes it has no other output. -/
theorem Known.publishing {input : HandleInput E} (known : Known fmt path trace handle)
    {pre post : List (HandleObs P δ)} {narinfo : NarInfo P δ} {call : Call}
    (h : Handle.step fmt cache path upstreamCaches handle input =
      some (handle', pre ++ .publish narinfo call :: post)) :
    pre = [] ∧ (handleLog trace).publications = [] ∧
      ∃ initial, Publishing fmt path initial (handleLog trace) narinfo call := by
  obtain ⟨state, narHash, narSize, infos, rfl, answer⟩ := publish_of_step h
    (List.mem_append_right _ List.mem_cons_self)
  cases known with
  | gettingInfos same uploaded measured publications published =>
      rcases receiveInfos_publishes same uploaded measured infos with
        ⟨e, failed⟩ | ⟨narinfo', call', answer', publishing⟩
      · rw [failed] at answer
        obtain ⟨-, nothing⟩ := Prod.ext_iff.mp answer
        exact absurd nothing.symm (by simp)
      · rw [answer'] at answer
        obtain ⟨-, single⟩ := Prod.ext_iff.mp answer
        rcases pre with _ | ⟨first, pre⟩
        · cases single
          exact ⟨rfl, publications, _, publishing⟩
        · simp at single

end Steps

end HandleStorePath

end CacheAction
