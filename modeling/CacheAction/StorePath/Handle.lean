import CacheAction.Foundations.Machine
import CacheAction.StorePath.ExistenceCheck
import CacheAction.StorePath.HashAndCountWriter
import CacheAction.Sub60.UploadNar

/-!
# Handling a store path

`handle_store_path` as a machine, for the `NixStore` writer and `Sub60Cache`.
After the existence check and the request for an upload, two halves run
concurrently over a pipe (`try_join`): `write_nar` writes to the hashing writer,
`upload_nar` reads from the other end.  The inputs interleave the two halves in
any order, with any buffers, any partial transfer and any failure.  Either half
ends both when it fails; when both have succeeded, the NARInfo is put together
and published.

`write_nar` is seen through what it does to its writer: it polls writes, fails,
or shuts the writer down, which is the last thing it does.  The writer itself
belongs to `handle_store_path` and outlives both halves, so that the stream ends
with the shutdown and not when `write_nar` fails.

### What is one step

A step is one poll of a half, or one answer.  Between two of them the other half may be polled
any number of times, and the pipe is the only thing they share, so the interleavings of the
polls are all the interleavings there are.  `try_join` looks at both results after every poll
(`Handle.join`): an error returns at once and drops the other half where it is.

A read of the uploader is a step of its own input, with no bytes in it: what is read is what
the pipe delivers.  The other inputs of the upload, the answers of the server and the clock, are
passed on as they are.
-/

namespace CacheAction

namespace HandleStorePath

open Sub60

/-- `NAR_STREAM_BUFFER_SIZE`. -/
def narStreamBufferSize : ℕ := 64 * 1024

/-- `HandlePathError`. -/
inductive HandlePathError (E : Type) where
  | checkNarInfoExistence (source : CacheRequestError E)
  | createNarUploadId (source : CacheRequestError E)
  | getPathInfos (source : E)
  | uploadNar (source : CacheRequestError E)
  | uploadNarInfo (source : CacheRequestError E)
  | writeNar (source : E)
  | writeNarWroteZeroBytes
  deriving DecidableEq

/-- `CompressionAlgorithm`, as far as it is used. -/
inductive CompressionAlgorithm where
  | none
  deriving DecidableEq, Repr

/-- `NarInfo`, for store paths `P` and digests `δ`.  Its URL is left empty. -/
structure NarInfo (P δ : Type) where
  storePath : P
  compression : CompressionAlgorithm
  fileHash : δ
  fileSize : NonZero 64
  narHash : δ
  narSize : NonZero 64
  references : List String
  deriver : Option String
  signatures : List String
  contentAddress : Option String
  deriving DecidableEq

/-- `StorePathInfos`: each part may fail to be read. -/
structure PathInfos (E : Type) where
  references : Except E (List String)
  deriver : Except E (Option String)
  signatures : Except E (List String)
  contentAddress : Except E (Option String)

/-- What handling a path uses of other crates. -/
structure HandleFormats (P σ δ E : Type) extends Formats E where
  narinfoFilename : P → String
  storeBasename : P → String
  printNarInfo : NarInfo P δ → String
  sha256 : IncrementalHash σ δ

/-- The two halves of `try_join`: the writer, whether `write_nar` has returned,
and `upload_nar`. -/
structure Streaming (σ E : Type) where
  writer : HashAndCountWriter σ
  written : Bool
  upload : Upload E
  deriving DecidableEq

/-- Where `handle_store_path` is. -/
inductive Handle (P σ δ E : Type) where
  | called
  | checking (check : Check E)
  | initiating
  | streaming (halves : Streaming σ E)
  | gettingInfos (state : NarUploadState) (narHash : δ) (narSize : NonZero 64)
  | uploadingNarinfo (state : NarUploadState) (narinfo : NarInfo P δ)
  | returned (result : Except (HandlePathError E) (Option (NonZero 64)))
  | panicked (panic : Panic)
  deriving DecidableEq

/-- What `handle_store_path` waits for, and what its two halves do. -/
inductive HandleInput (E : Type) where
  | start
  | check (input : CheckInput E)
  | initiated (sent : Sent E)
  /-- `write_nar` polls a write of `buf`, of which the pipe would accept `limit`
  bytes. -/
  | write (buf : List UInt8) (limit : ℕ)
  | writeFails (error : E)
  /-- `write_nar` shuts its writer down and returns. -/
  | shutdown (result : Except E Unit)
  /-- `upload_nar` polls the pipe, which would deliver `limit` bytes. -/
  | read (limit : ℕ)
  | readFails (error : E)
  /-- `upload_nar` gets something else. -/
  | upload (input : UploadInput E)
  | pathInfos (infos : Except E (PathInfos E))
  | narinfoSent (sent : Sent E)

/-- What `handle_store_path` does and learns. -/
inductive HandleObs (P δ : Type) where
  | check (o : CheckObs)
  | checked (push : Bool)
  | called (call : Call)
  | initiated (state : NarUploadState)
  | accepted (bytes : List UInt8)
  | writerReturned (ok : Bool)
  | upload (o : UploadObs)
  | publish (narinfo : NarInfo P δ) (call : Call)
  | published
  deriving DecidableEq

variable {P σ δ E : Type} (fmt : HandleFormats P σ δ E) (cache : Sub60Cache) (path : P)
  (upstreamCaches : List Url)

namespace Handle

/-- The call that initiates the upload. -/
def initiateCall : Call :=
  .initiateNarUpload (fmt.storeBasename path)

/-- The call that publishes the NARInfo. -/
def narinfoCall (state : NarUploadState) (narinfo : NarInfo P δ) : Call :=
  .uploadNarinfo (fmt.narinfoFilename path) (fmt.printNarInfo narinfo) state.uploadId

/-- After a step of the existence check. -/
def afterCheck : Check E → Handle P σ δ E × List (HandleObs P δ)
  | .returned (.ok true) => (.initiating, [.checked true, .called (initiateCall fmt path)])
  | .returned (.ok false) => (.returned (.ok none), [.checked false])
  | .returned (.error e) => (.returned (.error (.checkNarInfoExistence e)), [])
  | .panicked panic => (.panicked panic, [])
  | check => (.checking check, [])

/-- The answer of `initiate_nar_upload`; the pipe is created and the two halves
are started. -/
def receiveState (sent : Sent E) : Handle P σ δ E × List (HandleObs P δ) :=
  match initiateNarUpload fmt.toFormats (fmt.storeBasename path)
      (cache.request fmt.toFormats (initiateCall fmt path)) sent with
  | .error e => (.returned (.error (.createNarUploadId e)), [])
  | .ok state =>
      (.streaming
        { writer := .new fmt.sha256 (.new narStreamBufferSize), written := false,
          upload := .start state },
        [.initiated state])

/-- Both halves have succeeded. -/
def finish (writer : HashAndCountWriter σ) (state : NarUploadState) : Handle P σ δ E :=
  match NonZero.new? 64 writer.numBytesWritten with
  | none => .returned (.error .writeNarWroteZeroBytes)
  | some narSize => .gettingInfos state (fmt.sha256.finalize writer.sha256) narSize

/-- `try_join`, after a step of one of its halves that has not failed. -/
def join (halves : Streaming σ E) : Handle P σ δ E :=
  match halves.upload with
  -- the writer is dropped together with the half that uses it
  | .returned _ (.error e) => .returned (.error (.uploadNar e))
  | .returned state (.ok ()) =>
      if halves.written then finish fmt halves.writer state else .streaming halves
  | _ => .streaming halves

/-- `write_nar` polls its writer. -/
def write (halves : Streaming σ E) (buf : List UInt8) (limit : ℕ) :
    Handle P σ δ E × List (HandleObs P δ) :=
  match halves.writer.pollWrite fmt.sha256 buf limit with
  | (.ready (.ok numBytes), writer) =>
      (.streaming { halves with writer }, [.accepted (buf.take numBytes)])
  | (_, writer) => (.streaming { halves with writer }, [])

/-- `write_nar` shuts its writer down and returns the result. -/
def shutdown (halves : Streaming σ E) :
    Except E Unit → Handle P σ δ E × List (HandleObs P δ)
  | .ok () =>
      (join fmt { halves with writer := halves.writer.close, written := true },
        [.writerReturned true])
  | .error e => (.returned (.error (.writeNar e)), [.writerReturned false])

/-- A step of `upload_nar`. -/
def uploadStep (halves : Streaming σ E) (input : UploadInput E) :
    Option (Handle P σ δ E × List (HandleObs P δ)) :=
  (Upload.step fmt.toFormats cache halves.upload input).map fun next =>
    (join fmt { halves with upload := next.1 }, next.2.map .upload)

/-- `upload_nar` polls the other end of the pipe. -/
def read (halves : Streaming σ E) (limit : ℕ) :
    Option (Handle P σ δ E × List (HandleObs P δ)) :=
  match halves.writer.inner.pollRead limit with
  | (.pending, _) => uploadStep fmt cache halves (.read .pending)
  | (.ready bytes, inner) =>
      uploadStep fmt cache { halves with writer := { halves.writer with inner } }
        (.read (.ready (.ok bytes)))

/-- The NARInfo, from the first part of the infos that cannot be read or from all
of them. -/
def narInfo (narHash : δ) (narSize : NonZero 64) (infos : PathInfos E) :
    Except E (NarInfo P δ) := do
  let references ← infos.references
  let deriver ← infos.deriver
  let signatures ← infos.signatures
  let contentAddress ← infos.contentAddress
  return { storePath := path, compression := .none, fileHash := narHash, fileSize := narSize,
           narHash, narSize, references, deriver, signatures, contentAddress }

/-- The answer of `get_path_infos`. -/
def receiveInfos (state : NarUploadState) (narHash : δ) (narSize : NonZero 64)
    (infos : Except E (PathInfos E)) : Handle P σ δ E × List (HandleObs P δ) :=
  match infos.bind (narInfo path narHash narSize) with
  | .error e => (.returned (.error (.getPathInfos e)), [])
  | .ok narinfo =>
      (.uploadingNarinfo state narinfo, [.publish narinfo (narinfoCall fmt path state narinfo)])

/-- The answer of `upload_narinfo`. -/
def receivePublication (state : NarUploadState) (narinfo : NarInfo P δ) (sent : Sent E) :
    Handle P σ δ E × List (HandleObs P δ) :=
  match uploadNarinfo fmt.toFormats (fmt.printNarInfo narinfo)
      (cache.request fmt.toFormats (narinfoCall fmt path state narinfo)) sent with
  | .error e => (.returned (.error (.uploadNarInfo e)), [])
  | .ok narinfoSize =>
      (.returned (.ok (some (narinfo.narSize.saturatingAdd narinfoSize))), [.published])

/-- One step. -/
def step (handle : Handle P σ δ E) (input : HandleInput E) :
    Option (Handle P σ δ E × List (HandleObs P δ)) :=
  match handle, input with
  | .called, .start =>
      let check := Check.start (fmt.narinfoFilename path)
      some (.checking check.1, check.2.map .check)
  | .checking check, .check input =>
      (Check.step fmt.toFormats cache (fmt.narinfoFilename path) upstreamCaches check input).map
        fun next =>
          let after := afterCheck fmt path next.1
          (after.1, next.2.map .check ++ after.2)
  | .initiating, .initiated sent => some (receiveState fmt cache path sent)
  -- `write_nar` does nothing any more once it has returned
  | .streaming halves, .write buf limit =>
      if halves.written then none else some (write fmt halves buf limit)
  | .streaming halves, .writeFails e =>
      if halves.written then none
      else some (.returned (.error (.writeNar e)), [.writerReturned false])
  | .streaming halves, .shutdown result =>
      if halves.written then none else some (shutdown fmt halves result)
  | .streaming halves, .read limit => read fmt cache halves limit
  | .streaming halves, .readFails e => uploadStep fmt cache halves (.read (.ready (.error e)))
  | .streaming halves, .upload input =>
      match input with
      -- the reader is the other end of the pipe
      | .read _ => none
      | input => uploadStep fmt cache halves input
  | .gettingInfos state narHash narSize, .pathInfos infos =>
      some (receiveInfos fmt path state narHash narSize infos)
  | .uploadingNarinfo state narinfo, .narinfoSent sent =>
      some (receivePublication fmt cache path state narinfo sent)
  | _, _ => none

end Handle

/-- Everything that a step can do. -/
inductive HandleStep :
    Handle P σ δ E → HandleInput E → Handle P σ δ E → List (HandleObs P δ) → Prop where
  | start :
      HandleStep .called .start (.checking (Check.start (fmt.narinfoFilename path)).1)
        ((Check.start (E := E) (fmt.narinfoFilename path)).2.map .check)
  | check {check check' input out}
      (done : Check.step fmt.toFormats cache (fmt.narinfoFilename path) upstreamCaches check input =
        some (check', out)) :
      HandleStep (.checking check) (.check input) (Handle.afterCheck fmt path check').1
        (out.map .check ++ (Handle.afterCheck (σ := σ) fmt path check').2)
  | initiated {sent} :
      HandleStep .initiating (.initiated sent) (Handle.receiveState fmt cache path sent).1
        (Handle.receiveState (σ := σ) fmt cache path sent).2
  | write {halves buf limit} (writing : halves.written = false) :
      HandleStep (.streaming halves) (.write buf limit) (Handle.write fmt halves buf limit).1
        (Handle.write fmt halves buf limit).2
  | writeFails {halves e} (writing : halves.written = false) :
      HandleStep (.streaming halves) (.writeFails e) (.returned (.error (.writeNar e)))
        [.writerReturned false]
  | shutdown {halves result} (writing : halves.written = false) :
      HandleStep (.streaming halves) (.shutdown result) (Handle.shutdown fmt halves result).1
        (Handle.shutdown fmt halves result).2
  | read {halves limit handle' out} (done : Handle.read fmt cache halves limit = some (handle', out)) :
      HandleStep (.streaming halves) (.read limit) handle' out
  | readFails {halves e handle' out}
      (done : Handle.uploadStep fmt cache halves (.read (.ready (.error e))) =
        some (handle', out)) :
      HandleStep (.streaming halves) (.readFails e) handle' out
  | upload {halves input handle' out} (other : ∀ polled, input ≠ .read polled)
      (done : Handle.uploadStep fmt cache halves input = some (handle', out)) :
      HandleStep (.streaming halves) (.upload input) handle' out
  | pathInfos {state narHash narSize infos} :
      HandleStep (.gettingInfos state narHash narSize) (.pathInfos infos)
        (Handle.receiveInfos fmt path state narHash narSize infos).1
        (Handle.receiveInfos fmt path state narHash narSize infos).2
  | narinfoSent {state narinfo sent} :
      HandleStep (.uploadingNarinfo state narinfo) (.narinfoSent sent)
        (Handle.receivePublication fmt cache path state narinfo sent).1
        (Handle.receivePublication fmt cache path state narinfo sent).2

/-- There is no other step. -/
theorem Handle.step_spec {handle handle' : Handle P σ δ E} {input : HandleInput E}
    {out : List (HandleObs P δ)}
    (h : Handle.step fmt cache path upstreamCaches handle input = some (handle', out)) :
    HandleStep fmt cache path upstreamCaches handle input handle' out := by
  unfold Handle.step at h
  split at h
  · cases h
    exact .start
  · obtain ⟨⟨check, outputs⟩, done, hnext⟩ := Option.map_eq_some_iff.mp h
    obtain ⟨rfl, rfl⟩ := Prod.ext_iff.mp hnext
    exact .check done
  · obtain ⟨rfl, rfl⟩ := Prod.ext_iff.mp (Option.some.inj h)
    exact .initiated
  · rw [Option.ite_none_left_eq_some, Bool.not_eq_true] at h
    obtain ⟨rfl, rfl⟩ := Prod.ext_iff.mp (Option.some.inj h.2)
    exact .write h.1
  · rw [Option.ite_none_left_eq_some, Bool.not_eq_true] at h
    obtain ⟨rfl, rfl⟩ := Prod.ext_iff.mp (Option.some.inj h.2)
    exact .writeFails h.1
  · rw [Option.ite_none_left_eq_some, Bool.not_eq_true] at h
    obtain ⟨rfl, rfl⟩ := Prod.ext_iff.mp (Option.some.inj h.2)
    exact .shutdown h.1
  · exact .read h
  · exact .readFails h
  · split at h
    · cases h
    · rename_i other
      exact .upload other h
  · obtain ⟨rfl, rfl⟩ := Prod.ext_iff.mp (Option.some.inj h)
    exact .pathInfos
  · obtain ⟨rfl, rfl⟩ := Prod.ext_iff.mp (Option.some.inj h)
    exact .narinfoSent
  · cases h

/-- `handle_store_path`, against any environment. -/
def handleMachine : Machine (Handle P σ δ E) (HandleInput E) (HandleObs P δ) where
  step := Handle.step fmt cache path upstreamCaches

end HandleStorePath

end CacheAction
