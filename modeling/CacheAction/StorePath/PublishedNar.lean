import CacheAction.StorePath.Exchange
import CacheAction.Sub60.Reassembly

/-!
# A published NARInfo and its NAR

Two properties of every run of `handle_store_path`, whatever the environment does and
however the two halves interleave.  Both are about the requests that are sent and the
answers to them.

* `published_narinfo_describes_upload`: a NARInfo that is put carries the hash and the
  size of the bodies that have been put for its upload, put together, and these are the
  bytes that the pipe has accepted.
* `never_published_without_nar`: a NARInfo is put at most once, and only after the upload
  of a NAR that is not empty has been completed; a failure of one of the two halves
  leaves the upload incomplete.

### How a statement about requests is obtained

The invariants (`Known`) speak of the log, in which the upload is a list of parts and the
publication a NARInfo.  A server sees neither.  For a NARInfo that is published after `pre`, three
facts are put together.

* The log of `pre` is that of a completed upload (`Known.publishing`).
* The requests of `pre` are those of an opening, of the upload in the log and of nothing else
  (`Sends`, `Opened.sentUpload`), and the bytes among them are the parts of the log
  (`bytesPut_handleRequests`).
* The entity tags, the success of the completion and that of the publication are what the
  inputs of the run bring (`learned_of_run`).

The log occurs in the statements as well, next to the requests: it says the same thing in the
terms of the program, and the later modules use whichever is nearer.
-/

namespace CacheAction

namespace HandleStorePath

open Sub60

variable {P σ δ E : Type} (fmt : HandleFormats P σ δ E) (cache : Sub60Cache) (path : P)
  (upstreamCaches : List Url)

/-! ## Runs -/

section Runs

variable {fmt cache path upstreamCaches} {is : List (HandleInput E)}
  {trace pre post : List (HandleObs P δ)} {handle : Handle P σ δ E}

/-- What is known at the end of a run. -/
theorem known_of_run
    (hrun : (handleMachine fmt cache path upstreamCaches).run .called is = some (handle, trace)) :
    Known fmt path trace handle := by
  have known := (handleMachine fmt cache path upstreamCaches).run_invariant
    (I := fun handle trace => Known fmt path trace handle)
    (fun _ _ _ _ _ known hstep => known.step hstep) (.called rfl) hrun
  rwa [List.nil_append] at known

/-- The order of the requests, in a whole run, -/
theorem sends_of_run
    (hrun : (handleMachine fmt cache path upstreamCaches).run .called is = some (handle, trace)) :
    Sends fmt cache path trace handle := by
  have sends := (handleMachine fmt cache path upstreamCaches).run_invariant
    (I := fun handle trace => Known fmt path trace handle ∧ Sends fmt cache path trace handle)
    (fun _ _ _ _ _ known hstep => ⟨known.1.step hstep, known.2.step known.1 hstep⟩)
    ⟨.called rfl, trivial⟩ hrun
  rw [List.nil_append] at sends
  exact sends.2

/-- and what the outputs of a run can say. -/
theorem speaks_of_run
    (hrun : (handleMachine fmt cache path upstreamCaches).run .called is = some (handle, trace)) :
    ∀ o ∈ trace, Speaks fmt path o := by
  have speaks := (handleMachine fmt cache path upstreamCaches).run_invariant
    (I := fun _ trace => ∀ o ∈ trace, Speaks fmt path o)
    (fun _ _ _ _ _ known hstep =>
      List.forall_mem_append.mpr ⟨known, Handle.step_speaks hstep⟩)
    (fun o member => absurd member List.not_mem_nil) hrun
  rwa [List.nil_append] at speaks

/-- **Where a NARInfo is published**, the run up to there has completed the upload. -/
theorem publication_of_run
    (hrun : (handleMachine fmt cache path upstreamCaches).run .called is = some (handle, trace))
    {narinfo : NarInfo P δ} {call : Call} (split : trace = pre ++ .publish narinfo call :: post) :
    ∃ initial before now, before <+: is ∧
      (handleMachine fmt cache path upstreamCaches).run .called before = some (now, pre) ∧
      SentUpload fmt cache path initial ((handleLog pre).upload.answers.map Prod.snd)
        (handleRequests fmt cache pre) ∧
      Publishing fmt path initial (handleLog pre) narinfo call := by
  subst split
  obtain ⟨before, i, s, s', trace', first, rest, fits, ran, publishes, rfl⟩ :=
    (handleMachine fmt cache path upstreamCaches).exists_step_of_run hrun
  obtain ⟨rfl, unpublished, initial, publishing⟩ := (known_of_run ran).publishing publishes
  obtain ⟨state, narHash, narSize, infos, rfl, -⟩ := publish_of_step publishes
    (List.mem_append_right _ List.mem_cons_self)
  have opened : Opened fmt cache path trace' := sends_of_run ran
  rw [List.append_nil]
  exact ⟨initial, before, _, (List.prefix_append _ _).trans fits, ran,
    opened.sentUpload publishing.uploaded unpublished, publishing⟩

theorem mem_publications {narinfo : NarInfo P δ} {call : Call} :
    (narinfo, call) ∈ (handleLog trace).publications ↔ .publish narinfo call ∈ trace := by
  constructor
  · intro member
    obtain ⟨o, member, reads⟩ := List.mem_filterMap.mp member
    split at reads <;> cases reads
    exact member
  · intro member
    exact List.mem_filterMap.mpr ⟨_, member, rfl⟩

end Runs

/-! ## A run -/

/-- The SHA-256 of the bytes 1, 2, 3; other bytes are not hashed here. -/
def exampleDigest (bytes : List UInt8) : String :=
  if bytes = [1, 2, 3] then "039058c6f2c0cb492c533b0a4d14ef77cc0f78abccced5287d84a1a2011cfb81"
  else ""

/-- Store paths are pairs of a hash and a name; a server hands out an upload with
parts of two bytes. -/
def exampleFormats : HandleFormats (String × String) (List UInt8) String Unit where
  toFormats :=
    { secondPartFormats with
      appendPair := fun url key value => { url with suffix := "?" ++ key ++ "=" ++ value }
      parseNarMultiparts := fun _ => .ok
        { partSize := twoByteParts.partSize, partsUrls := [partUrlOf 1, partUrlOf 2],
          uploadId := "id", expirationTs := fromSecs 60 } }
  narinfoFilename path := path.1 ++ ".narinfo"
  storeBasename path := path.1 ++ "-" ++ path.2
  printNarInfo narinfo :=
    "StorePath: /nix/store/" ++ narinfo.storePath.1 ++ "-" ++ narinfo.storePath.2 ++
      "\nURL: \nCompression: none\nFileHash: sha256:" ++ narinfo.fileHash ++ "\nFileSize: " ++
      toString narinfo.fileSize.val ++ "\nNarHash: sha256:" ++ narinfo.narHash ++
      "\nNarSize: " ++ toString narinfo.narSize.val ++ "\n"
  sha256 := .collecting exampleDigest

def examplePath : String × String := ("00000000000000000000000000000000", "hello")

def nixosCache : Url where
  origin := "https://cache.nixos.org"
  path := .hierarchical "/"
  suffix := ""

def missing : Sent Unit :=
  .ok { status := 404, etag := none, text := .ok "" }

/-- The path is in neither cache; its NAR of three bytes is written in two
pieces, the second while the first part is being uploaded. -/
def pushRun : List (HandleInput Unit) :=
  [.start, .check .probe, .check (.upstream (some 404)), .check (.own missing),
    .initiated (answered ""), .upload (.clock 0), .read 5, .write [1, 2, 3] 2, .read 1, .read 1,
    .write [3] 7, .upload (.part (answered "\"a\"") true), .shutdown (.ok ()),
    .upload (.clock 1), .read 9, .read 9, .upload (.part (answered "\"b\"") false),
    .upload (.complete (answered "")),
    .pathInfos (.ok { references := .ok [], deriver := .ok none, signatures := .ok [],
                      contentAddress := .ok none }),
    .narinfoSent (answered "")]

def exampleUpload : NarUploadState where
  partSize := twoByteParts.partSize
  partUrls := [partUrlOf 1, partUrlOf 2]
  storeBasename := "00000000000000000000000000000000-hello"
  uploadId := "id"
  urlsExpirationTs := fromSecs 60

/-- What happens before the NARInfo is published. -/
def uploadTrace : List (HandleObs (String × String) String) :=
  [.check (.called (.hasNarinfo "00000000000000000000000000000000.narinfo")),
    .check (.get { nixosCache with
      path := .hierarchical "/00000000000000000000000000000000.narinfo" }),
    .checked true, .called (.initiateNarUpload "00000000000000000000000000000000-hello"),
    .initiated exampleUpload, .accepted [1, 2], .upload (.read [1]), .upload (.read [2]),
    .upload (.called (.uploadPart (partUrlOf 1) [1, 2])), .accepted [3],
    .upload (.uploaded (partUrlOf 1) [1, 2] "a"), .writerReturned true, .upload (.read [3]),
    .upload .eof, .upload (.called (.uploadPart (partUrlOf 2) [3])),
    .upload (.uploaded (partUrlOf 2) [3] "b"),
    .upload (.called
      (.completeNarUpload "id" ["a", "b"] "00000000000000000000000000000000-hello")),
    .upload .completed]

def exampleNarinfo : NarInfo (String × String) String where
  storePath := examplePath
  compression := .none
  fileHash := "039058c6f2c0cb492c533b0a4d14ef77cc0f78abccced5287d84a1a2011cfb81"
  fileSize := ⟨3, by decide, by decide⟩
  narHash := "039058c6f2c0cb492c533b0a4d14ef77cc0f78abccced5287d84a1a2011cfb81"
  narSize := ⟨3, by decide, by decide⟩
  references := []
  deriver := none
  signatures := []
  contentAddress := none

def exampleNarinfoCall : Call :=
  .uploadNarinfo "00000000000000000000000000000000.narinfo"
    (exampleFormats.printNarInfo exampleNarinfo) "id"

theorem pushRun_eq :
    (handleMachine exampleFormats exampleCache examplePath [nixosCache]).run .called pushRun =
      some (.returned (.ok (some ⟨274, by decide, by decide⟩)),
        uploadTrace ++ .publish exampleNarinfo exampleNarinfoCall :: [.published]) := by
  decide +kernel

/-! ## The NARInfo describes the upload -/

/-- The NARInfo that is published by `call`, after `trace`, describes what has been uploaded
under `initial`: the bytes in the bodies of the requests that have put the parts, in the order
in which they were put.  NAR and file are the same, since nothing is compressed. -/
structure DescribesUpload (initial : NarUploadState) (trace : List (HandleObs P δ))
    (narinfo : NarInfo P δ) (call : Call) : Prop where
  /-- The only upload initiated is `initial`. -/
  initiated : (handleLog trace).initiated = [initial]
  /-- It has been completed, with the entity tags of its parts. -/
  sent : SentUpload fmt cache path initial ((handleLog trace).upload.answers.map Prod.snd)
    (handleRequests fmt cache trace)
  completions : (handleLog trace).upload.completions =
    [.completeNarUpload initial.uploadId ((handleLog trace).upload.answers.map Prod.snd)
      initial.storeBasename]
  completed : (handleLog trace).upload.completed = true
  /-- The NARInfo is put for that upload. -/
  request : cache.request fmt.toFormats call = narinfoRequest fmt cache path initial narinfo
  narHash : narinfo.narHash = fmt.sha256.digest (bytesPut (handleRequests fmt cache trace))
  fileHash : narinfo.fileHash = fmt.sha256.digest (bytesPut (handleRequests fmt cache trace))
  narSize : narinfo.narSize.val = (bytesPut (handleRequests fmt cache trace)).length
  fileSize : narinfo.fileSize.val = (bytesPut (handleRequests fmt cache trace)).length
  /-- What has been put is what the pipe has accepted. -/
  accepted : bytesPut (handleRequests fmt cache trace) = (handleLog trace).accepted

/-- **The published NARInfo describes exactly the uploaded bytes.**

The bytes are those of the requests: the bodies of the part requests, in the order in
which they have been sent, one after the other.  The hash and the size have been computed on
another way, from what the writer has put into the pipe, and the two agree once the reader has
come to the end of the pipe and the last part has been answered. -/
theorem published_narinfo_describes_upload {is : List (HandleInput E)}
    {trace pre post : List (HandleObs P δ)} {handle : Handle P σ δ E}
    (hrun : (handleMachine fmt cache path upstreamCaches).run .called is = some (handle, trace))
    {narinfo : NarInfo P δ} {call : Call} (split : trace = pre ++ .publish narinfo call :: post) :
    ∃ initial, DescribesUpload fmt cache path initial pre narinfo call := by
  obtain ⟨initial, before, now, -, ran, sent, publishing⟩ := publication_of_run hrun split
  have bytes : bytesPut (handleRequests fmt cache pre) = (handleLog pre).upload.assembled :=
    bytesPut_handleRequests (speaks_of_run ran)
  have request : cache.request fmt.toFormats call =
      narinfoRequest fmt cache path initial narinfo := publishing.sentRequest
  obtain ⟨uploaded, nar, file, -⟩ := publishing
  have measured : ∀ {hash : δ} {size : NonZero 64}, Measured fmt (handleLog pre) hash size →
      hash = fmt.sha256.digest (bytesPut (handleRequests fmt cache pre)) ∧
        size.val = (bytesPut (handleRequests fmt cache pre)).length := by
    intro hash size measured
    rw [bytes, ← uploaded.whole]
    exact ⟨measured.hash, measured.size⟩
  exact
    ⟨initial,
      { initiated := uploaded.initiated
        sent
        completions := uploaded.complete.completed
        completed := uploaded.completed
        request
        narHash := (measured nar).1
        fileHash := (measured file).1
        narSize := (measured nar).2
        fileSize := (measured file).2
        accepted := bytes.trans uploaded.whole.symm }⟩

theorem published_narinfo_describes_upload_three_bytes :
    ∃ initial, DescribesUpload exampleFormats exampleCache examplePath initial uploadTrace
      exampleNarinfo exampleNarinfoCall :=
  published_narinfo_describes_upload exampleFormats exampleCache examplePath [nixosCache]
    pushRun_eq rfl

/-! ## No NARInfo without its NAR -/

/-- What precedes the publication of a NARInfo: the inputs so far, and the trace. -/
structure AfterUpload (initial : NarUploadState) (before : List (HandleInput E))
    (trace : List (HandleObs P δ)) : Prop where
  /-- `write_nar` has returned `Ok`, having written at least one byte. -/
  writer : (handleLog trace).writer = [true]
  nonempty : (handleLog trace).accepted ≠ []
  /-- One upload has been initiated and completed, and nothing else has been sent. -/
  initiated : (handleLog trace).initiated = [initial]
  sent : SentUpload fmt cache path initial
    (before.filterMap (HandleInput.etag? fmt.toFormats)) (handleRequests fmt cache trace)
  /-- Every part put has been answered successfully. -/
  parts : (handleLog trace).upload.answers.map Prod.fst =
    partsPut (handleRequests fmt cache trace)
  etags : (handleLog trace).upload.answers.map Prod.snd =
    before.filterMap (HandleInput.etag? fmt.toFormats)
  /-- The one request to complete the upload has succeeded. -/
  completions : (handleLog trace).upload.completions =
    [.completeNarUpload initial.uploadId (before.filterMap (HandleInput.etag? fmt.toFormats))
      initial.storeBasename]
  completed : before.any HandleInput.completes = true

/-- The order of effects in a run of `handle_store_path`. -/
structure NeverWithoutNar (is : List (HandleInput E)) (handle : Handle P σ δ E)
    (trace : List (HandleObs P δ)) : Prop where
  /-- At most one NARInfo is put, -/
  once : (narinfosPut (handleRequests fmt cache trace)).length ≤ 1
  /-- and only after its NAR has been uploaded, for the upload of the NAR. -/
  afterUpload : ∀ pre o post request, trace = pre ++ o :: post →
    o.request? fmt cache = some request → request.narinfo? ≠ none →
      ∃ initial narinfo before now, request = narinfoRequest fmt cache path initial narinfo ∧
        before <+: is ∧
        (handleMachine fmt cache path upstreamCaches).run .called before = some (now, pre) ∧
        AfterUpload fmt cache path initial before pre
  /-- After a failure of `write_nar`, of the reader or of a part, neither is the upload
  completed nor a NARInfo put: nothing has been sent but what opens an upload, its parts
  and requests for URLs. -/
  failure : is.any (HandleInput.fails fmt.toFormats) = true →
    (handleLog trace).upload.completions = [] ∧ (handleLog trace).publications = [] ∧
      ∃ initial opening upload, (handleLog trace).initiated = [initial] ∧
        handleRequests fmt cache trace = opening ++ upload ∧ Opening fmt cache path opening ∧
        ∀ request ∈ upload, PartRequest fmt.toFormats cache initial request
  /-- The number of bytes is returned exactly when a NARInfo has been put and answered
  with a successful status; it is the sum of both sizes, or the largest number if that is
  too large. -/
  pushed : ∀ numBytes, handle = .returned (.ok (some numBytes)) ↔
    is.any HandleInput.publishes = true ∧ ∃ initial narinfo,
      narinfoRequest fmt cache path initial narinfo ∈ handleRequests fmt cache trace ∧
        numBytes.val = min ((handleLog trace).accepted.length +
          (fmt.printNarInfo narinfo).utf8ByteSize) (2 ^ 64 - 1)
  /-- A path is skipped only if the existence check says so, with no request but
  those that read. -/
  skipped : handle = .returned (.ok none) →
    .checked false ∈ trace ∧ (∀ o ∈ trace, o.mutates = false) ∧
      ∀ request ∈ handleRequests fmt cache trace, request.readOnly = true

section Parts

variable {fmt cache path upstreamCaches} {trace : List (HandleObs P δ)} {handle : Handle P σ δ E}

/-- What the log has by then, the requests and the answers show. -/
theorem Publishing.afterUpload {initial : NarUploadState} {narinfo : NarInfo P δ} {call : Call}
    {before : List (HandleInput E)} {now : Handle P σ δ E}
    (publishing : Publishing fmt path initial (handleLog trace) narinfo call)
    (ran : (handleMachine fmt cache path upstreamCaches).run .called before = some (now, trace))
    (sent : SentUpload fmt cache path initial ((handleLog trace).upload.answers.map Prod.snd)
      (handleRequests fmt cache trace)) :
    AfterUpload fmt cache path initial before trace := by
  obtain ⟨uploaded, nar, -, -⟩ := publishing
  have learned := learned_of_run ran
  refine
    { writer := uploaded.writer, nonempty := ?_, initiated := uploaded.initiated,
      sent := learned.etags ▸ sent,
      parts := uploaded.complete.answered.trans (partsPut_handleRequests (speaks_of_run ran)).symm,
      etags := learned.etags, completions := learned.etags ▸ uploaded.complete.completed,
      completed := learned.completed.symm.trans uploaded.completed }
  intro empty
  have size := nar.size
  rw [empty, List.length_nil] at size
  exact absurd size (Nat.ne_of_gt narinfo.narSize.pos)

/-- The NARInfo has been published successfully in one state only. -/
theorem Known.published_or (known : Known fmt path trace handle) :
    ((handleLog trace).published = false ∧ (handleLog trace).publications.length ≤ 1) ∨
    ∃ initial narinfo call numBytes, handle = .returned (.ok (some numBytes)) ∧
      Publishing fmt path initial (handleLog trace) narinfo call ∧
      (handleLog trace).publications = [(narinfo, call)] ∧
      numBytes = narinfo.narSize.saturatingAdd (fmt.printNarInfo narinfo).utf8ByteSize := by
  have untouched : handleLog trace = {} →
      (handleLog trace).published = false ∧ (handleLog trace).publications.length ≤ 1 := by
    intro log
    rw [log]
    exact ⟨rfl, Nat.zero_le _⟩
  have unpublished : (handleLog trace).published = false → (handleLog trace).publications = [] →
      (handleLog trace).published = false ∧ (handleLog trace).publications.length ≤ 1 := by
    intro published publications
    rw [publications]
    exact ⟨published, Nat.zero_le _⟩
  cases known with
  | called nothing => exact Or.inl (untouched (by rw [nothing]; rfl))
  | checking known => exact Or.inl (untouched known.log)
  | initiating log => exact Or.inl (untouched log)
  | streaming flowing => exact Or.inl (unpublished flowing.published flowing.publications)
  | gettingInfos _ _ _ publications published =>
      exact Or.inl (unpublished published publications)
  | uploadingNarinfo _ publications published =>
      refine Or.inl ⟨published, ?_⟩
      rw [publications]
      exact Nat.le_refl _
  | pushed publishing publications _ size =>
      exact Or.inr ⟨_, _, _, _, rfl, publishing, publications, size⟩
  | skipped _ known => exact Or.inl (untouched known.log)
  | failed _ publications published => exact Or.inl ⟨published, publications⟩
  | panicked known => exact Or.inl (untouched known.log)

/-- Nothing is published twice. -/
theorem Known.once (known : Known fmt path trace handle) :
    (handleLog trace).publications.length ≤ 1 := by
  rcases known.published_or with ⟨-, few⟩ | ⟨_, _, _, _, -, -, publications, -⟩
  · exact few
  · rw [publications]
    exact Nat.le_refl _

theorem narinfosPut_le_one {is : List (HandleInput E)}
    (hrun : (handleMachine fmt cache path upstreamCaches).run .called is = some (handle, trace)) :
    (narinfosPut (handleRequests fmt cache trace)).length ≤ 1 := by
  rw [narinfosPut_handleRequests (speaks_of_run hrun)]
  exact Nat.le_trans (List.length_filterMap_le _ _) (known_of_run hrun).once

/-- A failure is what ends the run. -/
theorem Known.failure (known : Known fmt path trace handle) (failed : (handleLog trace).Failed) :
    (handleLog trace).Uncompleted ∧ (handleLog trace).publications = [] := by
  cases known with
  | called nothing =>
      subst nothing
      exact absurd failed (not_failed_of_untouched rfl)
  | checking known => exact absurd failed (not_failed_of_untouched known.log)
  | initiating log => exact absurd failed (not_failed_of_untouched log)
  | streaming flowing => exact ⟨flowing.uncompleted_of_failed failed, flowing.publications⟩
  | gettingInfos _ uploaded _ _ _ => exact absurd failed uploaded.not_failed
  | uploadingNarinfo publishing _ _ => exact absurd failed publishing.uploaded.not_failed
  | pushed publishing _ _ _ => exact absurd failed publishing.uploaded.not_failed
  | skipped _ known => exact absurd failed (not_failed_of_untouched known.log)
  | failed unfinished _ _ => exact unfinished failed
  | panicked known => exact absurd failed (not_failed_of_untouched known.log)

/-- A failure comes after the opening. -/
theorem Sends.opened_of_failed (sends : Sends fmt cache path trace handle)
    (known : Known fmt path trace handle) (failed : (handleLog trace).Failed) :
    Opened fmt cache path trace := by
  cases known with
  | called nothing =>
      subst nothing
      exact absurd failed (not_failed_of_untouched rfl)
  | checking known => exact absurd failed (not_failed_of_untouched known.log)
  | initiating | streaming | gettingInfos | uploadingNarinfo => exact sends
  | pushed | skipped | failed | panicked =>
      exact sends.resolve_right fun untouched => not_failed_of_untouched untouched.log failed

/-- What has been sent by a run that fails. -/
theorem Opened.unfinished (opened : Opened fmt cache path trace)
    (uncompleted : (handleLog trace).Uncompleted)
    (unpublished : (handleLog trace).publications = []) :
    ∃ initial opening upload, (handleLog trace).initiated = [initial] ∧
      handleRequests fmt cache trace = opening ++ upload ∧ Opening fmt cache path opening ∧
      ∀ request ∈ upload, PartRequest fmt.toFormats cache initial request := by
  obtain ⟨opening, known, sent⟩ := opened
  obtain ⟨initial, initiated, unfinished⟩ := uncompleted
  rw [unpublished, List.map_nil, List.append_nil] at sent
  exact ⟨initial, opening, _, initiated, sent, known, unfinished.requests⟩

/-- The request of a publication is among those sent. -/
theorem mem_handleRequests {narinfo : NarInfo P δ} {call : Call}
    (publishes : .publish narinfo call ∈ trace) :
    cache.request fmt.toFormats call ∈ handleRequests fmt cache trace :=
  List.mem_filterMap.mpr ⟨_, publishes, rfl⟩

/-- What counts as published has been put, and has been answered with a successful
status. -/
theorem put_of_published {is : List (HandleInput E)}
    (hrun : (handleMachine fmt cache path upstreamCaches).run .called is = some (handle, trace))
    (published : (handleLog trace).published = true) :
    is.any HandleInput.publishes = true ∧ ∃ initial narinfo,
      narinfoRequest fmt cache path initial narinfo ∈ handleRequests fmt cache trace := by
  obtain ⟨initial, narinfo, call, numBytes, -, publishing, publications, -⟩ :=
    (known_of_run hrun).published_or.resolve_left fun none =>
      Bool.false_ne_true (none.1.symm.trans published)
  have member : (narinfo, call) ∈ (handleLog trace).publications := by
    rw [publications]
    exact List.mem_singleton_self _
  refine ⟨(learned_of_run hrun).published.symm.trans published, initial, narinfo, ?_⟩
  rw [← publishing.sentRequest]
  exact mem_handleRequests (mem_publications.mp member)

/-- The result counts the bytes that the pipe has accepted, and those of the NARInfo that was
put. -/
theorem Known.pushed_iff {is : List (HandleInput E)} (known : Known fmt path trace handle)
    (learned : HandleLearned fmt is (handleLog trace)) (speaks : ∀ o ∈ trace, Speaks fmt path o)
    (numBytes : NonZero 64) :
    handle = .returned (.ok (some numBytes)) ↔
      is.any HandleInput.publishes = true ∧ ∃ initial narinfo,
        narinfoRequest fmt cache path initial narinfo ∈ handleRequests fmt cache trace ∧
          numBytes.val = min ((handleLog trace).accepted.length +
            (fmt.printNarInfo narinfo).utf8ByteSize) (2 ^ 64 - 1) := by
  rw [← learned.published]
  constructor
  · rintro rfl
    cases known with
    | @pushed initial narinfo call numBytes publishing publications published size =>
        have member : (narinfo, call) ∈ (handleLog trace).publications := by
          rw [publications]
          exact List.mem_singleton_self _
        refine ⟨published, initial, narinfo, ?_, ?_⟩
        · rw [← publishing.sentRequest]
          exact mem_handleRequests (mem_publications.mp member)
        · rw [size, ← publishing.nar.size]
          rfl
  · rintro ⟨published, initial, narinfo, sent, size⟩
    obtain ⟨initial', narinfo', call', numBytes', rfl, publishing, publications, size'⟩ :=
      known.published_or.resolve_left fun none =>
        Bool.false_ne_true (none.1.symm.trans published)
    -- only one NARInfo has been put
    have put : (_, fmt.printNarInfo narinfo) ∈ narinfosPut (handleRequests fmt cache trace) :=
      List.mem_filterMap.mpr ⟨_, sent, rfl⟩
    rw [narinfosPut_handleRequests speaks, publications] at put
    obtain ⟨entry, member, puts⟩ := List.mem_filterMap.mp put
    obtain rfl := List.mem_singleton.mp member
    rw [publishing.sentRequest] at puts
    have text : fmt.printNarInfo narinfo' = fmt.printNarInfo narinfo :=
      congrArg Prod.snd (Option.some.inj puts)
    have same : numBytes' = numBytes := by
      apply NonZero.ext
      rw [size, size', ← publishing.nar.size, ← text]
      rfl
    rw [same]

end Parts

/-- **A NARInfo is never published without its complete NAR.**

What has happened is read off the requests that have been sent and the answers among the
inputs, not off the model's state or its labels.  `Speaks` says which requests a label can
stand for, so that a `PUT` of a NARInfo comes from the one step that publishes, and
`learned_of_run` which answers have led to the state that the run is in. -/
theorem never_published_without_nar {is : List (HandleInput E)} {trace : List (HandleObs P δ)}
    {handle : Handle P σ δ E}
    (hrun : (handleMachine fmt cache path upstreamCaches).run .called is = some (handle, trace)) :
    NeverWithoutNar fmt cache path upstreamCaches is handle trace := by
  have known := known_of_run hrun
  have learned := learned_of_run hrun
  have speaks := speaks_of_run hrun
  refine
    { once := ?_, afterUpload := ?_, failure := ?_, pushed := known.pushed_iff learned speaks,
      skipped := ?_ }
  · exact narinfosPut_le_one hrun
  · intro pre o post request split sent puts
    have member : o ∈ trace := by
      rw [split]
      exact List.mem_append_right _ List.mem_cons_self
    obtain ⟨narinfo, state, rfl⟩ := (speaks o member).publishes_of_narinfo sent puts
    obtain ⟨initial, before, now, fits, ran, uploaded, publishing⟩ := publication_of_run hrun split
    obtain rfl := Option.some.inj sent
    exact ⟨initial, narinfo, before, now, publishing.sentRequest, fits, ran,
      publishing.afterUpload ran uploaded⟩
  · intro fails
    have failed := learned.failed.mpr fails
    obtain ⟨uncompleted, unpublished⟩ := known.failure failed
    have opened := (sends_of_run hrun).opened_of_failed known failed
    have sent := opened.unfinished uncompleted unpublished
    obtain ⟨initial, -, unfinished⟩ := uncompleted
    exact ⟨unfinished.completions, unpublished, sent⟩
  · rintro rfl
    cases known with
    | skipped said untouched => exact ⟨said, untouched.readOnly, untouched.requests⟩

theorem never_published_without_nar_three_bytes :
    NeverWithoutNar exampleFormats exampleCache examplePath [nixosCache] pushRun
      (.returned (.ok (some ⟨274, by decide, by decide⟩)) : Handle _ _ _ Unit)
      (uploadTrace ++ .publish exampleNarinfo exampleNarinfoCall :: [.published]) :=
  never_published_without_nar exampleFormats exampleCache examplePath [nixosCache] pushRun_eq

end HandleStorePath

end CacheAction
