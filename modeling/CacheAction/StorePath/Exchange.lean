import CacheAction.StorePath.Publication
import CacheAction.Sub60.Exchange

/-!
# What `handle_store_path` sends, and what it is answered

For one path the caches get, in this order, the requests of the existence check, which
only read, the request that initiates an upload, the requests of that upload, and the one
that puts the NARInfo.  `Opened` says this of a trace from the second of these on; a
trace that has not come as far has only read (`Untouched`).  One of the two holds in every
state (`Sends`), so what is known about the log of a run is known about its requests.

The other direction is about the inputs: what counts in the log as a success or as a
failure is what the cache, the store and the pipe have answered (`learned_of_run`).

### Calls and requests

A `Call` is a name for an operation of the cache with its arguments.  What a server sees of it
is the request, and what an operation makes of the answer is decided by the status and the
headers.  A statement about calls alone would still hold if the requests were all empty, and
one about results if they were not read from the answers.  So what is claimed of a run is
stated about the two ends that others can observe: the requests that leave it
(`handleRequests`), with their methods, URLs and bodies, and the answers that come in
(`HandleInput`).  The log stays as the invariants need it; the theorems of this module are the
bridge, and the only place where `Sub60Cache.request` is evaluated.
-/

namespace CacheAction

namespace HandleStorePath

open Sub60

variable {P σ δ E : Type} (fmt : HandleFormats P σ δ E) (cache : Sub60Cache) (path : P)
  (upstreamCaches : List Url)

/-! ## Requests -/

/-- The request that an output sends. -/
def HandleObs.request? : HandleObs P δ → Option Request
  | .check o => some (o.request fmt.toFormats cache)
  | .called call => some (cache.request fmt.toFormats call)
  | .upload (.called call) => some (cache.request fmt.toFormats call)
  | .publish _ call => some (cache.request fmt.toFormats call)
  | _ => none

/-- The requests that are sent, to any of the caches.  The outputs that send nothing, such as what
the pipe has accepted, drop out, and the order of the others is kept. -/
def handleRequests (trace : List (HandleObs P δ)) : List Request :=
  trace.filterMap (HandleObs.request? fmt cache)

/-- The request that initiates the upload. -/
def initiationRequest : Request where
  method := .post
  url := (cache.narMultipartsUrl fmt.toFormats).toUrl
  body := .text (fmt.storeBasename path)

/-- The request that publishes a NARInfo: the printed NARInfo is put to the URL of the path,
with the identifier of its upload. -/
def narinfoRequest (initial : NarUploadState) (narinfo : NarInfo P δ) : Request where
  method := .put
  url := cache.narinfoUploadUrl fmt.toFormats (fmt.narinfoFilename path) initial.uploadId
  body := .text (fmt.printNarInfo narinfo)

/-- What is sent before an upload: the caches are asked, and the upload is initiated. -/
def Opening (requests : List Request) : Prop :=
  ∃ checks, requests = checks ++ [initiationRequest fmt cache path] ∧
    ∀ request ∈ checks, request.readOnly = true

/-- An upload has been asked for.  Everything after the opening belongs to the upload or
publishes a NARInfo.  The statement is an equation, not a list of what occurs: whatever
else might be sent, at any place, would break it. -/
def Opened (trace : List (HandleObs P δ)) : Prop :=
  ∃ opening, Opening fmt cache path opening ∧ handleRequests fmt cache trace =
    opening ++ (uploadRequests fmt.toFormats cache (uploads trace) ++
      (handleLog trace).publications.map fun publication =>
        cache.request fmt.toFormats publication.2)

/-- Everything that has been sent by the time a NARInfo is published: the caches have been
asked, an upload has been initiated, and it has been completed with `etags`. -/
def SentUpload (initial : NarUploadState) (etags : List Etag) (requests : List Request) : Prop :=
  ∃ opening upload, requests = opening ++ upload ∧ Opening fmt cache path opening ∧
    CompletedWith fmt.toFormats cache initial etags upload

/-- What an output can say.  Calls stand in several kinds of outputs, but only some calls
in each: a part is put by the uploader and by nothing else, a NARInfo by the step that
publishes it.  Without this, bytes that are put outside of the upload would not be in the
log. -/
inductive Speaks : HandleObs P δ → Prop where
  | reads {o} (unchanged : o.mutates = false) : Speaks o
  | initiates : Speaks (.called (Handle.initiateCall fmt path))
  | uploads {call} (ofUpload : call.ofUpload = true) : Speaks (.upload (.called call))
  | publishes {narinfo state} : Speaks (.publish narinfo (Handle.narinfoCall fmt path state narinfo))

/-- What has been sent when `handle_store_path` is in the given state.  A run that has returned
may have done so before the upload was asked for or after it. -/
def Sends (trace : List (HandleObs P δ)) : Handle P σ δ E → Prop
  | .called => True
  | .checking _ => True
  | .returned _ => Opened fmt cache path trace ∨ Untouched trace
  | .panicked _ => Opened fmt cache path trace ∨ Untouched trace
  | _ => Opened fmt cache path trace

section Requests

variable {fmt cache path upstreamCaches} {initial : NarUploadState}
  {trace out : List (HandleObs P δ)} {handle handle' : Handle P σ δ E} {halves : Streaming σ E}

/-- A step adds its own requests. -/
theorem handleRequests_append (trace out : List (HandleObs P δ)) :
    handleRequests fmt cache (trace ++ out) =
      handleRequests fmt cache trace ++ handleRequests fmt cache out :=
  List.filterMap_append

/-- The requests of the uploader are the same in the trace of the handler. -/
theorem handleRequests_upload (out : List UploadObs) :
    handleRequests fmt cache (out.map .upload) = uploadRequests fmt.toFormats cache out := by
  rw [handleRequests, uploadRequests, List.filterMap_map]
  congr 1
  funext o
  cases o <;> rfl

/-- An output that changes nothing sends nothing but a request that reads. -/
theorem readOnly_of_not_mutates {o : HandleObs P δ} (unchanged : o.mutates = false) :
    ∀ request ∈ o.request? fmt cache, request.readOnly = true := by
  rintro request sent
  rcases o with o | _ | call | _ | _ | _ | o | ⟨narinfo, call⟩ | _
  · obtain rfl := Option.some.inj sent
    rw [CheckObs.request_readOnly]
    simpa [HandleObs.mutates] using unchanged
  · cases sent
  · obtain rfl := Option.some.inj sent
    rw [cache.request_readOnly]
    simpa [HandleObs.mutates] using unchanged
  · cases sent
  · cases sent
  · cases sent
  · rcases o with call | _ | _ | _ | _ | _ | _ | _
    · obtain rfl := Option.some.inj sent
      rw [cache.request_readOnly]
      simpa [HandleObs.mutates] using unchanged
    all_goals cases sent
  · cases unchanged
  · cases sent

/-- So a path that has not been touched has left the caches as they are. -/
theorem Untouched.requests (untouched : Untouched trace) :
    ∀ request ∈ handleRequests fmt cache trace, request.readOnly = true := by
  intro request member
  obtain ⟨o, inside, sent⟩ := List.mem_filterMap.mp member
  exact readOnly_of_not_mutates (untouched.readOnly o inside) request sent

/-- A trace that has an opening is told of in every state. -/
theorem Opened.sends (opened : Opened fmt cache path trace) (handle : Handle P σ δ E) :
    Sends fmt cache path trace handle := by
  cases handle with
  | called => trivial
  | checking check => trivial
  | returned result => exact .inl opened
  | panicked panic => exact .inl opened
  | _ => exact opened

/-- What has been sent when an upload has succeeded and nothing has been published yet. -/
theorem Opened.sentUpload (opened : Opened fmt cache path trace)
    (uploaded : Uploaded initial (handleLog trace))
    (unpublished : (handleLog trace).publications = []) :
    SentUpload fmt cache path initial ((handleLog trace).upload.answers.map Prod.snd)
      (handleRequests fmt cache trace) := by
  obtain ⟨opening, known, sent⟩ := opened
  rw [unpublished, List.map_nil, List.append_nil] at sent
  exact ⟨opening, _, sent, known, uploaded.complete.completedWith⟩

/-- The NARInfo is put to the URL of its path, for its upload. -/
theorem Publishing.sentRequest {narinfo : NarInfo P δ} {call : Call} {log : HandleLog P δ}
    (publishing : Publishing fmt path initial log narinfo call) :
    cache.request fmt.toFormats call = narinfoRequest fmt cache path initial narinfo := by
  rw [publishing.request]
  rfl

/-- A step that sends nothing keeps the order. -/
theorem Opened.silent (opened : Opened fmt cache path trace)
    (requests : handleRequests fmt cache out = []) (noUploads : uploads out = [])
    (publications : (handleLog out).publications = []) : Opened fmt cache path (trace ++ out) := by
  obtain ⟨opening, known, sent⟩ := opened
  refine ⟨opening, known, ?_⟩
  rw [handleRequests_append, requests, List.append_nil, sent, uploads_append, noUploads,
    List.append_nil, handleLog_append]
  show _ = opening ++ (_ ++ ((handleLog trace).publications ++ _).map _)
  rw [publications, List.append_nil]

/-- The upload goes on, as long as no NARInfo has been published. -/
theorem Opened.upload (opened : Opened fmt cache path trace)
    (unpublished : (handleLog trace).publications = []) {input : UploadInput E}
    (h : Handle.uploadStep fmt cache halves input = some (handle', out)) :
    Opened fmt cache path (trace ++ out) := by
  obtain ⟨next, -, hnext⟩ := Option.map_eq_some_iff.mp h
  obtain ⟨-, rfl⟩ := Prod.ext_iff.mp hnext
  obtain ⟨opening, known, sent⟩ := opened
  have publications : (handleLog (trace ++ next.2.map .upload)).publications = [] := by
    rw [handleLog_append, handleLog_uploads]
    exact (List.append_nil _).trans unpublished
  refine ⟨opening, known, ?_⟩
  rw [unpublished] at sent
  rw [publications, handleRequests_append, handleRequests_upload, sent, uploads_append,
    uploads_upload]
  simp only [uploadRequests, List.filterMap_append, List.map_nil, List.append_nil,
    List.append_assoc]

/-- The NARInfo comes last. -/
theorem Opened.publish (opened : Opened fmt cache path trace)
    (unpublished : (handleLog trace).publications = []) (narinfo : NarInfo P δ) (call : Call) :
    Opened fmt cache path (trace ++ [.publish narinfo call]) := by
  obtain ⟨opening, known, sent⟩ := opened
  have publications : (handleLog (trace ++ [.publish narinfo call])).publications =
      [(narinfo, call)] := by
    rw [handleLog_append]
    show (handleLog trace).publications ++ [(narinfo, call)] = _
    rw [unpublished, List.nil_append]
  refine ⟨opening, known, ?_⟩
  rw [unpublished] at sent
  rw [publications, handleRequests_append, sent, uploads_append]
  show _ ++ [cache.request fmt.toFormats call] = opening ++ (uploadRequests _ _ (_ ++ []) ++ _)
  simp

/-- The path is to be pushed: an upload is asked for. -/
theorem Untouched.opened (untouched : Untouched trace) :
    Opened fmt cache path (trace ++ [.checked true, .called (Handle.initiateCall fmt path)]) := by
  have log : handleLog (trace ++ [.checked true, .called (Handle.initiateCall fmt path)]) = {} :=
    (handleLog_silent rfl).trans untouched.log
  refine ⟨handleRequests fmt cache trace ++ [initiationRequest fmt cache path],
    ⟨_, rfl, untouched.requests⟩, ?_⟩
  -- the initiation is the handler's own request, and none of the uploader
  have nothing : uploadRequests fmt.toFormats cache
      (uploads (trace ++ [.checked true, .called (Handle.initiateCall fmt path)])) = [] := by
    rw [uploadRequests_eq]
    exact congrArg (fun log : HandleLog P δ => log.upload.calls.map _) log
  rw [nothing, log, handleRequests_append]
  exact (List.append_nil _).symm

/-- What the check has found out decides whether an upload is asked for. -/
theorem sends_afterCheck (untouched : Untouched trace) (check : Check E) :
    Sends fmt cache path (trace ++ (Handle.afterCheck fmt path check).2)
      (Handle.afterCheck fmt path check).1 := by
  unfold Handle.afterCheck
  split
  · exact untouched.opened
  · exact .inr (untouched.skip _)
  · exact .inr (by rwa [List.append_nil])
  · exact .inr (by rwa [List.append_nil])
  · trivial

/-- **Every step keeps to the order of the requests.**  That a NARInfo has not been published while
the two halves run is known of the log, so their requests still come before it. -/
theorem Sends.step {input : HandleInput E} (sends : Sends fmt cache path trace handle)
    (known : Known fmt path trace handle)
    (h : Handle.step fmt cache path upstreamCaches handle input = some (handle', out)) :
    Sends fmt cache path (trace ++ out) handle' := by
  cases Handle.step_spec _ _ _ _ h with
  | start => trivial
  | check done =>
      cases known with
      | checking untouched =>
          rw [← List.append_assoc]
          exact sends_afterCheck (untouched.check (Check.step_readOnly _ _ _ _ done)) _
  | initiated =>
      refine Opened.sends (Opened.silent sends ?_ ?_ ?_) _ <;>
        · unfold Handle.receiveState
          split <;> rfl
  | write writing =>
      refine Opened.sends (Opened.silent sends ?_ ?_ ?_) _ <;>
        · unfold Handle.write
          split <;> rfl
  | writeFails writing => exact Opened.sends (Opened.silent sends rfl rfl rfl) _
  | @shutdown halves result writing =>
      refine Opened.sends (Opened.silent sends ?_ ?_ ?_) _ <;>
        · rcases result with e | ⟨⟩ <;> rfl
  | read done =>
      cases known with
      | streaming flowing =>
          unfold Handle.read at done
          split at done <;> exact (Opened.upload sends flowing.publications done).sends _
  | readFails done =>
      cases known with
      | streaming flowing => exact (Opened.upload sends flowing.publications done).sends _
  | upload other done =>
      cases known with
      | streaming flowing => exact (Opened.upload sends flowing.publications done).sends _
  | pathInfos =>
      cases known with
      | gettingInfos same uploaded measured unpublished published =>
          refine Opened.sends ?_ _
          unfold Handle.receiveInfos
          split
          · exact Opened.silent sends rfl rfl rfl
          · exact Opened.publish sends unpublished _ _
  | narinfoSent =>
      refine Opened.sends (Opened.silent sends ?_ ?_ ?_) _ <;>
        · unfold Handle.receivePublication
          split <;> rfl

/-! ### What is put -/

/-- The uploader sends the calls of an upload and no others. -/
theorem uploadStep_speaks {input : UploadInput E}
    (h : Handle.uploadStep fmt cache halves input = some (handle', out)) :
    ∀ o ∈ out, Speaks fmt path o := by
  obtain ⟨next, hstep, hnext⟩ := Option.map_eq_some_iff.mp h
  obtain ⟨-, rfl⟩ := Prod.ext_iff.mp hnext
  intro o member
  obtain ⟨u, inside, rfl⟩ := List.mem_map.mp member
  cases u with
  | called call => exact .uploads (Upload.step_ofUpload hstep inside)
  | _ => exact .reads rfl

/-- **There is nothing else that a step can say.** -/
theorem Handle.step_speaks {input : HandleInput E}
    (h : Handle.step fmt cache path upstreamCaches handle input = some (handle', out)) :
    ∀ o ∈ out, Speaks fmt path o := by
  have checked : ∀ {outputs : List CheckObs}, (∀ o ∈ outputs, o.readOnly = true) →
      ∀ o ∈ (outputs.map .check : List (HandleObs P δ)), Speaks fmt path o := by
    intro outputs readOnly o member
    obtain ⟨u, inside, rfl⟩ := List.mem_map.mp member
    exact .reads (by simp [HandleObs.mutates, readOnly u inside])
  cases Handle.step_spec _ _ _ _ h with
  | start => exact checked (by simp [Check.start, CheckObs.readOnly, Call.readOnly])
  | check done =>
      refine List.forall_mem_append.mpr ⟨checked (Check.step_readOnly _ _ _ _ done), ?_⟩
      unfold Handle.afterCheck
      split
      · exact List.forall_mem_cons.mpr ⟨.reads rfl, List.forall_mem_singleton.mpr .initiates⟩
      · exact List.forall_mem_singleton.mpr (.reads rfl)
      all_goals exact fun o member => absurd member List.not_mem_nil
  | initiated =>
      unfold Handle.receiveState
      split
      · exact fun o member => absurd member List.not_mem_nil
      · exact List.forall_mem_singleton.mpr (.reads rfl)
  | write writing =>
      unfold Handle.write
      split
      · exact List.forall_mem_singleton.mpr (.reads rfl)
      · exact fun o member => absurd member List.not_mem_nil
  | writeFails writing => exact List.forall_mem_singleton.mpr (.reads rfl)
  | @shutdown halves result writing =>
      rcases result with e | ⟨⟩ <;> exact List.forall_mem_singleton.mpr (.reads rfl)
  | read done =>
      unfold Handle.read at done
      split at done <;> exact uploadStep_speaks done
  | readFails done => exact uploadStep_speaks done
  | upload other done => exact uploadStep_speaks done
  | pathInfos =>
      unfold Handle.receiveInfos
      split
      · exact fun o member => absurd member List.not_mem_nil
      · exact List.forall_mem_singleton.mpr .publishes
  | narinfoSent =>
      unfold Handle.receivePublication
      split
      · exact fun o member => absurd member List.not_mem_nil
      · exact List.forall_mem_singleton.mpr (.reads rfl)

/-- **The parts of the log are the bytes that are put**, with the URLs they are put to. -/
theorem partsPut_handleRequests (speaks : ∀ o ∈ trace, Speaks fmt path o) :
    partsPut (handleRequests fmt cache trace) = (handleLog trace).upload.parts := by
  show _ = (uploads trace).filterMap _
  rw [partsPut, handleRequests, uploads, List.filterMap_filterMap, List.filterMap_filterMap]
  refine List.filterMap_congr fun o member => ?_
  cases speaks o member with
  | reads unchanged =>
      -- a request that reads puts no part, and is none of the log
      have puts : (o.request? fmt cache).bind Request.part? = none := by
        rw [Option.bind_eq_none_iff]
        exact fun request sent =>
          (Request.nothing_of_readOnly (readOnly_of_not_mutates unchanged request sent)).1
      rw [puts]
      rcases o with _ | _ | _ | _ | _ | _ | (call | _ | _ | _ | _ | _ | _ | _) | _ | _
      case upload.called =>
          cases call <;> first | rfl | cases unchanged
      all_goals rfl
  | initiates => rfl
  | @uploads call ofUpload =>
      rw [HandleObs.request?, Option.bind_some, cache.request_part?]
      cases call <;> rfl
  | publishes => rfl

/-- Put one after the other, they are what the upload has assembled. -/
theorem bytesPut_handleRequests (speaks : ∀ o ∈ trace, Speaks fmt path o) :
    bytesPut (handleRequests fmt cache trace) = (handleLog trace).upload.assembled := by
  rw [bytesPut, partsPut_handleRequests speaks, UploadLog.assembled]

/-- A text is put only where a NARInfo is published. -/
theorem Speaks.publishes_of_narinfo {o : HandleObs P δ} (speaks : Speaks fmt path o)
    {request : Request} (sent : o.request? fmt cache = some request)
    (puts : request.narinfo? ≠ none) :
    ∃ narinfo state, o = .publish narinfo (Handle.narinfoCall fmt path state narinfo) := by
  cases speaks with
  | reads unchanged =>
      exact absurd (Request.nothing_of_readOnly (readOnly_of_not_mutates unchanged request sent)).2
        puts
  | initiates =>
      obtain rfl := Option.some.inj sent
      exact absurd rfl puts
  | @uploads call ofUpload =>
      obtain rfl := Option.some.inj sent
      refine absurd ?_ puts
      cases call <;> first | rfl | cases ofUpload
  | publishes => exact ⟨_, _, rfl⟩

/-- **The texts that are put are those of the publications.** -/
theorem narinfosPut_handleRequests (speaks : ∀ o ∈ trace, Speaks fmt path o) :
    narinfosPut (handleRequests fmt cache trace) = (handleLog trace).publications.filterMap
      fun entry => (cache.request fmt.toFormats entry.2).narinfo? := by
  show _ = (trace.filterMap _).filterMap _
  rw [narinfosPut, handleRequests, List.filterMap_filterMap, List.filterMap_filterMap]
  refine List.filterMap_congr fun o member => ?_
  rcases puts : (o.request? fmt cache).bind Request.narinfo? with _ | put
  · cases o <;> first | rfl | exact puts.symm
  · obtain ⟨request, sent, text⟩ := Option.bind_eq_some_iff.mp puts
    obtain ⟨narinfo, state, rfl⟩ := (speaks o member).publishes_of_narinfo sent (by simp [text])
    exact puts.symm

end Requests

/-! ## Answers -/

namespace HandleInput

variable (fmt : Formats E)

/-- The entity tag that the input brings, if it is a successful answer to a part. -/
def etag? : HandleInput E → Option Etag
  | .upload input => input.etag? fmt
  | _ => none

/-- The input is a successful answer to the request to complete the upload. -/
def completes : HandleInput E → Bool
  | .upload input => input.completes
  | _ => false

/-- The input is a successful answer to the NARInfo that is put. -/
def publishes : HandleInput E → Bool
  | .narinfoSent sent => succeeded sent
  | _ => false

/-- `write_nar` fails, or the reader of the pipe, or the upload of a part. -/
def fails : HandleInput E → Bool
  | .writeFails _ => true
  | .shutdown (.error _) => true
  | .readFails _ => true
  | .upload input => input.fails fmt
  | _ => false

end HandleInput

/-- The log has what the inputs say.  Every entry of the log that stands for a success or a
failure is read from an answer, and no answer is left out: the lists are equal, and not one
a part of the other. -/
structure HandleLearned (is : List (HandleInput E)) (log : HandleLog P δ) : Prop where
  etags : log.upload.answers.map Prod.snd = is.filterMap (HandleInput.etag? fmt.toFormats)
  completed : log.upload.completed = is.any HandleInput.completes
  published : log.published = is.any HandleInput.publishes
  failed : log.Failed ↔ is.any (HandleInput.fails fmt.toFormats) = true

section Answers

variable {fmt cache path upstreamCaches} {is rest : List (HandleInput E)}
  {trace out : List (HandleObs P δ)} {handle handle' : Handle P σ δ E} {halves : Streaming σ E}

theorem HandleLog.failed_append {log more : HandleLog P δ} :
    (log ++ more).Failed ↔ log.Failed ∨ more.Failed := by
  show false ∈ log.writer ++ more.writer ∨ (log.upload.failed || more.upload.failed) = true ↔ _
  rw [List.mem_append, Bool.or_eq_true, HandleLog.Failed, HandleLog.Failed]
  tauto

/-- What is learned adds up, as inputs and logs do. -/
theorem HandleLearned.append {log more : HandleLog P δ} (first : HandleLearned fmt is log)
    (second : HandleLearned fmt rest more) : HandleLearned fmt (is ++ rest) (log ++ more) where
  etags := by
    rw [List.filterMap_append, ← first.etags, ← second.etags]
    exact List.map_append
  completed := by
    rw [List.any_append, ← first.completed, ← second.completed]
    rfl
  published := by
    rw [List.any_append, ← first.published, ← second.published]
    rfl
  failed := by
    rw [HandleLog.failed_append, first.failed, second.failed, List.any_append, Bool.or_eq_true]

/-- What the uploader learns. -/
theorem uploadStep_learned {input : UploadInput E}
    (h : Handle.uploadStep fmt cache halves input = some (handle', out)) :
    HandleLearned fmt [.upload input] (handleLog out) := by
  obtain ⟨next, hstep, hnext⟩ := Option.map_eq_some_iff.mp h
  obtain ⟨-, rfl⟩ := Prod.ext_iff.mp hnext
  rw [handleLog_uploads]
  obtain ⟨etags, completed, failed⟩ := Upload.step_learned hstep
  refine ⟨etags, completed, rfl, ?_⟩
  show false ∈ [] ∨ (uploadLog next.2).failed = true ↔ _
  rw [failed]
  simp [HandleInput.fails]

theorem handleLog_afterCheck (check : Check E) :
    handleLog (Handle.afterCheck (σ := σ) (δ := δ) fmt path check).2 = {} := by
  unfold Handle.afterCheck
  split <;> rfl

theorem HandleLog.not_failed {log : HandleLog P δ} (writer : false ∉ log.writer)
    (upload : log.upload.failed = false) : ¬ log.Failed := by
  rintro (returned | failed)
  · exact writer returned
  · exact Bool.false_ne_true (upload.symm.trans failed)

/-- A read of the pipe brings no answer, and no failure. -/
theorem read_learned {limit : ℕ} (h : Handle.read fmt cache halves limit = some (handle', out)) :
    HandleLearned fmt [.read limit] (handleLog out) := by
  unfold Handle.read at h
  split at h
  · obtain ⟨etags, completed, published, failed⟩ := uploadStep_learned h
    exact ⟨etags, completed, published, failed⟩
  · obtain ⟨etags, completed, published, failed⟩ := uploadStep_learned h
    exact ⟨etags, completed, published, failed⟩

/-- **A step learns what its input says.** -/
theorem Handle.step_learned {input : HandleInput E}
    (h : Handle.step fmt cache path upstreamCaches handle input = some (handle', out)) :
    HandleLearned fmt [input] (handleLog out) := by
  have quiet : ∀ {log : HandleLog P δ}, log.writer = [] → log.upload.failed = false →
      ¬ log.Failed := fun writer => HandleLog.not_failed (writer ▸ List.not_mem_nil)
  cases Handle.step_spec _ _ _ _ h with
  | start =>
      rw [handleLog_check]
      exact ⟨rfl, rfl, rfl, iff_of_false (quiet rfl rfl) Bool.false_ne_true⟩
  | check done =>
      rw [handleLog_append, handleLog_check, handleLog_afterCheck, HandleLog.append_nothing]
      exact ⟨rfl, rfl, rfl, iff_of_false (quiet rfl rfl) Bool.false_ne_true⟩
  | initiated =>
      unfold Handle.receiveState
      split <;> exact ⟨rfl, rfl, rfl, iff_of_false (quiet rfl rfl) Bool.false_ne_true⟩
  | write writing =>
      unfold Handle.write
      split <;> exact ⟨rfl, rfl, rfl, iff_of_false (quiet rfl rfl) Bool.false_ne_true⟩
  | writeFails writing =>
      exact ⟨rfl, rfl, rfl, iff_of_true (.inl (List.mem_singleton_self _)) rfl⟩
  | @shutdown halves result writing =>
      rcases result with e | ⟨⟩
      · exact ⟨rfl, rfl, rfl, iff_of_true (.inl (List.mem_singleton_self _)) rfl⟩
      · refine ⟨rfl, rfl, rfl, iff_of_false (HandleLog.not_failed ?_ rfl) Bool.false_ne_true⟩
        show false ∉ [true]
        decide
  | read done => exact read_learned done
  | readFails done =>
      obtain ⟨etags, completed, published, failed⟩ := uploadStep_learned done
      exact ⟨etags, completed, published, failed⟩
  | upload other done => exact uploadStep_learned done
  | pathInfos =>
      unfold Handle.receiveInfos
      split <;> exact ⟨rfl, rfl, rfl, iff_of_false (quiet rfl rfl) Bool.false_ne_true⟩
  | @narinfoSent state narinfo sent =>
      unfold Handle.receivePublication
      split
      · rename_i e answer
        have refused : succeeded sent ≠ true := fun said => by
          rw [uploadNarinfo_eq_ok.mpr ⟨said, rfl⟩] at answer
          cases answer
        refine ⟨rfl, rfl, ?_, iff_of_false (quiet rfl rfl) Bool.false_ne_true⟩
        simp [handleLog, HandleInput.publishes, refused]
      · rename_i size answer
        have said := (uploadNarinfo_eq_ok.mp answer).1
        refine ⟨rfl, rfl, ?_, iff_of_false (quiet rfl rfl) Bool.false_ne_true⟩
        simp [handleLog, HandleInput.publishes, said]

/-- **What has been learned in a run is what has been answered.** -/
theorem learned_of_run
    (hrun : (handleMachine fmt cache path upstreamCaches).run handle is = some (handle', trace)) :
    HandleLearned fmt is (handleLog trace) := by
  refine (handleMachine fmt cache path upstreamCaches).run_related
    (R := fun is trace => HandleLearned fmt is (handleLog trace))
    ⟨rfl, rfl, rfl, by simp [HandleLog.Failed, handleLog, uploads, uploadLog]⟩
    (fun _ i _ out rest tail hstep known => ?_) hrun
  rw [handleLog_append]
  exact (Handle.step_learned hstep).append known

end Answers

end HandleStorePath

end CacheAction
