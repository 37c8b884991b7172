import CacheAction.Sub60.Assembly

/-!
# What an upload sends, and what it is answered

`UploadLog` tells an upload by the operations that it calls and by what it has learned
from their answers.  The server knows nothing of either: it gets requests and sends
answers.  Here the log is read off these.

* `partsPut_uploadRequests`: the parts of the log are the bodies that are put, and their
  URLs.
* `batchesRequested_of_run`: the URLs of the log are those of the answers to requests for
  these parts.
* `Complete.completedWith`: a complete upload has sent one request to complete it, the
  last one, and before it only parts and requests for URLs.
* `learned_of_run`: the entity tags of the log are those of the answers to the parts, and
  whether the upload has been completed, or something has failed, is what the answers say.

A statement about labels could be true of a program that sends something else under them, so
every claim about an upload is made of requests and answers.  The log stays what the proofs
work with: it is a sum over the steps, and its fields are what the invariants compare with the
state.  The theorems above are the bridge, and each is a fact about a single step, added up
over the run.
-/

namespace CacheAction

namespace Sub60

variable {E : Type} (fmt : Formats E) (cache : Sub60Cache)

/-! ## Requests -/

/-- The requests that an upload sends. -/
def uploadRequests (trace : List UploadObs) : List Request :=
  trace.filterMap fun
    | .called call => some (cache.request fmt call)
    | _ => none

/-- The request for the URLs of the parts with these numbers. -/
def partUrlsRequest (initial : NarUploadState) (partNumbers : List (NonZero 16)) : Request where
  method := .post
  url := (cache.narMultipartsPartsUrl fmt initial.uploadId).toUrl
  body := .text (fmt.printParts { partNumbers, storeBasename := initial.storeBasename })

/-- A request of an upload that is not completed yet.  A part may go to any URL, since
its URL comes from the server; URLs are asked for under the upload that the server has
initiated. -/
inductive PartRequest (initial : NarUploadState) : Request → Prop where
  | uploadPart (url : Url) (partBytes : List UInt8) :
      PartRequest initial { method := .put, url, body := .bytes partBytes }
  | requestPartUrls (number : NonZero 16) :
      PartRequest initial (partUrlsRequest fmt cache initial (newPartNumbers number))

/-- The request that completes an upload. -/
def completionRequest (initial : NarUploadState) (etags : List Etag) : Request where
  method := .post
  url := (cache.narMultipartsCompleteUrl fmt initial.uploadId).toUrl
  body := .text (fmt.printComplete { etags, storeBasename := initial.storeBasename })

/-- The requests of an upload that has been completed with `etags`: the last one
completes it, and no other one does. -/
def CompletedWith (initial : NarUploadState) (etags : List Etag) (requests : List Request) :
    Prop :=
  ∃ sent, requests = sent ++ [completionRequest fmt cache initial etags] ∧
    ∀ request ∈ sent, PartRequest fmt cache initial request

section Requests

variable {initial : NarUploadState} {trace : List UploadObs}

theorem uploadRequests_eq (trace : List UploadObs) :
    uploadRequests fmt cache trace = (uploadLog trace).calls.map (cache.request fmt) := by
  rw [uploadRequests, uploadLog, List.map_filterMap]
  congr 1
  funext o
  cases o <;> rfl

/-- **The parts of the log are the bodies that are put**, with the URLs they are put to. -/
theorem partsPut_uploadRequests (trace : List UploadObs) :
    partsPut (uploadRequests fmt cache trace) = (uploadLog trace).parts := by
  rw [partsPut, uploadRequests, uploadLog, List.filterMap_filterMap]
  congr 1
  funext o
  rcases o with call | _ | _ | _ | _ | _ | _ | _
  · rw [Option.bind_some, cache.request_part?]
    cases call <;> rfl
  all_goals rfl

theorem bytesPut_uploadRequests (trace : List UploadObs) :
    bytesPut (uploadRequests fmt cache trace) = (uploadLog trace).assembled := by
  rw [bytesPut, partsPut_uploadRequests, UploadLog.assembled]

variable {fmt cache}

/-- An upload calls nothing but its own operations. -/
theorem Upload.step_ofUpload {upload upload' : Upload E} {input : UploadInput E}
    {out : List UploadObs} (h : Upload.step fmt cache upload input = some (upload', out))
    {call : Call} (member : .called call ∈ out) : call.ofUpload = true := by
  cases Upload.step_spec h <;> simp at member <;> subst member <;> rfl

theorem PartCall.request {call : Call} (part : PartCall initial call) :
    PartRequest fmt cache initial (cache.request fmt call) := by
  cases part with
  | uploadPart url partBytes => exact .uploadPart url partBytes
  | requestPartUrls number => exact .requestPartUrls number

/-- Before it is completed, an upload sends nothing else. -/
theorem Unfinished.requests (unfinished : Unfinished initial (uploadLog trace)) :
    ∀ request ∈ uploadRequests fmt cache trace, PartRequest fmt cache initial request := by
  rw [uploadRequests_eq, List.forall_mem_map]
  exact fun call member => (unfinished.calls call member).request

/-- **A complete upload has been completed by its last request**, with the entity tags of
its parts. -/
theorem Complete.completedWith (complete : Complete initial (uploadLog trace)) :
    CompletedWith fmt cache initial ((uploadLog trace).answers.map Prod.snd)
      (uploadRequests fmt cache trace) := by
  obtain ⟨before, calls, parts⟩ := complete.calls
  refine ⟨before.map (cache.request fmt), ?_, ?_⟩
  · rw [uploadRequests_eq, calls, List.map_append]
    rfl
  · rw [List.forall_mem_map]
    exact fun call member => (parts call member).request

end Requests

/-! ## Batches of URLs -/

/-- Each batch of URLs is what the answer to a request holds, and it is the request sent last:
one for the URLs of these numbers, and no others. -/
def BatchesRequested (initial : NarUploadState) (is : List (UploadInput E))
    (trace : List UploadObs) : Prop :=
  ∀ pre partNumbers urls post, trace = pre ++ .partUrls partNumbers urls :: post →
    (uploadRequests fmt cache pre).getLast? =
        some (partUrlsRequest fmt cache initial partNumbers) ∧
      ∃ sent expirationTs, .partUrls sent ∈ is ∧
        requestPartUrls fmt (partUrlsRequest fmt cache initial partNumbers) sent =
          .ok { urls, expirationTs }

section Batches

variable {fmt cache} {initial : NarUploadState} {upload upload' : Upload E}
  {input : UploadInput E} {is : List (UploadInput E)} {trace out : List UploadObs}
  {locals : Locals}

/-- While an upload waits for URLs, the last thing that it has done is to ask for them. -/
theorem requested_of_run
    (hrun : (uploadMachine fmt cache).run (Upload.start initial) is =
      some (.requestingUrls locals, trace)) :
    (uploadRequests fmt cache trace).getLast? =
      some (cache.request fmt (Upload.partUrlsCall locals)) := by
  have start : ∀ locals, (Upload.start initial : Upload E) = .requestingUrls locals →
      (uploadRequests fmt cache []).getLast? =
        some (cache.request fmt (Upload.partUrlsCall locals)) := by
    intro locals waits
    cases waits
  have asked := (uploadMachine fmt cache).run_invariant
    (I := fun upload trace => ∀ locals, upload = .requestingUrls locals →
      (uploadRequests fmt cache trace).getLast? =
        some (cache.request fmt (Upload.partUrlsCall locals)))
    (fun upload trace i upload' out _ hstep locals waits => by
      subst waits
      cases Upload.step_spec hstep with
      | requestUrls unusable =>
          rw [uploadRequests, List.filterMap_append]
          exact List.getLast?_concat)
    start hrun
  rw [List.nil_append] at asked
  exact asked locals rfl

/-- The invariant at the end of a run. -/
theorem assembled_of_run
    (hrun : (uploadMachine fmt cache).run (Upload.start initial) is = some (upload, trace)) :
    Assembled initial (uploadLog trace) upload := by
  have assembled := (uploadMachine fmt cache).run_invariant
    (I := fun upload trace => Assembled initial (uploadLog trace) upload)
    (fun upload trace i upload' out known hstep => by
      rw [uploadLog_append]
      exact known.step hstep)
    (assembled_start initial) hrun
  rwa [List.nil_append] at assembled

/-- URLs come out of one step only, the answer to the request for them. -/
theorem Upload.step_batch (h : Upload.step fmt cache upload input = some (upload', out))
    {partNumbers : List (NonZero 16)} {urls : List Url} (member : .partUrls partNumbers urls ∈ out) :
    ∃ locals sent expirationTs, upload = .requestingUrls locals ∧ input = .partUrls sent ∧
      out = [.partUrls partNumbers urls] ∧ partNumbers = newPartNumbers locals.partNumber ∧
      requestPartUrls fmt (cache.request fmt (Upload.partUrlsCall locals)) sent =
        .ok { urls, expirationTs } := by
  cases Upload.step_spec h with
  | @receiveUrls locals sent parts answer =>
      obtain ⟨rfl, rfl⟩ := UploadObs.partUrls.inj (List.mem_singleton.mp member)
      exact ⟨locals, sent, parts.expirationTs, rfl, rfl, rfl, rfl, answer⟩
  | _ => simp at member

/-- The request for URLs is for the upload that the server has initiated. -/
theorem SameUpload.partUrlsRequest (same : SameUpload initial locals.state) :
    cache.request fmt (Upload.partUrlsCall locals) =
      partUrlsRequest fmt cache initial (newPartNumbers locals.partNumber) := by
  rw [Upload.partUrlsCall, same.uploadId, same.storeBasename]
  rfl

/-- **A batch of URLs has been asked for by the request before it.** -/
theorem batchesRequested_of_run
    (hrun : (uploadMachine fmt cache).run (Upload.start initial) is = some (upload, trace)) :
    BatchesRequested fmt cache initial is trace := by
  rintro pre partNumbers urls post rfl
  obtain ⟨before, i, s, s', trace', first, rest, fits, ran, answers, rfl⟩ :=
    (uploadMachine fmt cache).exists_step_of_run hrun
  obtain ⟨locals, sent, expirationTs, rfl, rfl, only, rfl, answer⟩ :=
    Upload.step_batch answers (List.mem_append_right _ List.mem_cons_self)
  -- nothing comes before the URLs in their step, so the request is the last one in `trace'`
  obtain rfl : first = [] := by
    rcases first with _ | ⟨o, first⟩
    · rfl
    · simp at only
  have same : SameUpload initial locals.state := by
    cases assembled_of_run ran with
    | requestingUrls known => exact known.same
  rw [List.append_nil, ← same.partUrlsRequest]
  exact ⟨requested_of_run ran, sent, expirationTs,
    fits.subset (List.mem_append_right _ (List.mem_singleton.mpr rfl)), answer⟩

end Batches

/-! ## Answers -/

namespace UploadInput

/-- The entity tag that the input brings, if it is a successful answer to a part. -/
def etag? : UploadInput E → Option Etag
  | .part sent _ => Sub60.etag? fmt sent
  | _ => none

/-- The input is a successful answer to the request to complete the upload. -/
def completes : UploadInput E → Bool
  | .complete sent => succeeded sent
  | _ => false

/-- The reader fails, or there is no entity tag for a part. -/
def fails : UploadInput E → Bool
  | .read (.ready (.error _)) => true
  | .part sent _ => (Sub60.etag? fmt sent).isNone
  | _ => false

end UploadInput

/-- The log has what the inputs say. -/
structure Learned (is : List (UploadInput E)) (log : UploadLog) : Prop where
  etags : log.answers.map Prod.snd = is.filterMap (UploadInput.etag? fmt)
  completed : log.completed = is.any UploadInput.completes
  failed : log.failed = is.any (UploadInput.fails fmt)

section Answers

variable {fmt cache} {upload upload' : Upload E} {input : UploadInput E}
  {is rest : List (UploadInput E)} {trace out : List UploadObs}

/-- What is learned adds up. -/
theorem Learned.append {log more : UploadLog} (first : Learned fmt is log)
    (second : Learned fmt rest more) : Learned fmt (is ++ rest) (log ++ more) where
  etags := by
    rw [List.filterMap_append, ← first.etags, ← second.etags]
    exact List.map_append
  completed := by
    rw [List.any_append, ← first.completed, ← second.completed]
    rfl
  failed := by
    rw [List.any_append, ← first.failed, ← second.failed]
    rfl

/-- **A step learns what its input says.** -/
theorem Upload.step_learned (h : Upload.step fmt cache upload input = some (upload', out)) :
    Learned fmt [input] (uploadLog out) := by
  cases Upload.step_spec h with
  | requestUrls | takeUrl | urlsFailed | receiveUrls | pending | nothingLeft | lastPart | readMore
  | fullPart | readFailed => exact ⟨rfl, rfl, rfl⟩
  | partFailed answer =>
      have none := uploadPart_eq_error answer
      exact ⟨by simp [uploadLog, UploadInput.etag?, none], rfl,
        by simp [uploadLog, UploadInput.fails, none]⟩
  | allParts answer | tooManyParts answer | nextPart answer =>
      have brings := uploadPart_eq_ok.mp answer
      exact ⟨by simp [uploadLog, UploadInput.etag?, brings], rfl,
        by simp [uploadLog, UploadInput.fails, brings]⟩
  | @completionFailed locals sent e answer =>
      have refused : succeeded sent ≠ true := fun said => by
        rw [completeNarUpload_eq_ok.mpr said] at answer
        cases answer
      exact ⟨rfl, by simp [uploadLog, UploadInput.completes, refused], rfl⟩
  | completed answer =>
      have said := completeNarUpload_eq_ok.mp answer
      exact ⟨rfl, by simp [uploadLog, UploadInput.completes, said], rfl⟩

/-- **What an upload has learned is what it has been answered.** -/
theorem learned_of_run (hrun : (uploadMachine fmt cache).run upload is = some (upload', trace)) :
    Learned fmt is (uploadLog trace) := by
  refine (uploadMachine fmt cache).run_related (R := fun is trace => Learned fmt is (uploadLog trace))
    ⟨rfl, rfl, rfl⟩ (fun _ i _ out rest tail hstep known => ?_) hrun
  rw [uploadLog_append]
  exact (Upload.step_learned hstep).append known

end Answers

end Sub60

end CacheAction
