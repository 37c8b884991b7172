import CacheAction.Sub60.Steps

/-!
# What an upload has assembled

`UploadLog` reads back from a trace which parts have been uploaded, which of
them have been answered and with which entity tags, and which bytes have been
read.  `Assembled` relates it to the state of `upload_nar`: between two parts,
the bodies uploaded so far are all of full size and put together are what has
been read; while the buffer is being filled, its first bytes come after them;
and so on for each phase.  Every step preserves it (`Assembled.step`).

### The shape of the invariant

The equation that carries everything is `bytes`: what has been read is the parts put
together, followed by what is in the buffer and has not been put yet (`tail`).  It is the
same in all phases, and only `tail` differs; so one structure (`Collecting`) serves the
phases in which a part is prepared, with `tail` as a parameter.  While a part is being put
there is no tail (`Uploading`), and after the last one there is nothing more to say about
the buffer at all (`Complete`).

Sizes are kept for the parts that have been *answered*, since all of these are full until
the last one turns out not to be.  Whether a part is the last one is known as soon as it is
put: exactly if it is short, or if nothing more could be read.

The end of a run that has failed is a disjunction (`Unfinished` or `Complete`): an upload
fails before it has asked for its completion, or because this very request has failed.  The
first half is what makes a failed upload harmless, and `unfinished_of_failed` says when it
applies.
-/

namespace CacheAction

namespace Sub60

variable {E : Type} (fmt : Formats E) (cache : Sub60Cache)

/-! ## Reading a trace -/

/-- What has been uploaded and read.

A log is a monoid, and reading a trace is a homomorphism (`uploadLog_append`): what a step
adds to the log is the log of its outputs.  That is all that the proofs use of `uploadLog`,
so a field is added here without touching them. -/
@[ext] structure UploadLog where
  /-- The parts, with the URLs they were put to. -/
  parts : List (Url × List UInt8) := []
  /-- The parts that have been answered, with the entity tags received. -/
  answers : List ((Url × List UInt8) × Etag) := []
  /-- The operations called, in order. -/
  calls : List Call := []
  /-- The bytes read. -/
  bytes : List UInt8 := []
  /-- Whether the reader has ended. -/
  eof : Bool := false
  /-- The requests to complete the upload. -/
  completions : List Call := []
  /-- Whether one of these requests has succeeded. -/
  completed : Bool := false
  /-- Whether the reader or the upload of a part has failed. -/
  failed : Bool := false

/-- The log of a trace. -/
def uploadLog (trace : List UploadObs) : UploadLog where
  parts := trace.filterMap fun
    | .called (.uploadPart url partBytes) => some (url, partBytes)
    | _ => none
  answers := trace.filterMap fun
    | .uploaded partUrl partBytes etag => some ((partUrl, partBytes), etag)
    | _ => none
  calls := trace.filterMap fun
    | .called call => some call
    | _ => none
  bytes := trace.flatMap fun
    | .read bytes => bytes
    | _ => []
  eof := trace.any fun
    | .eof => true
    | _ => false
  completions := trace.filterMap fun
    | .called (.completeNarUpload uploadId etags storeBasename) =>
        some (.completeNarUpload uploadId etags storeBasename)
    | _ => none
  completed := trace.any fun
    | .completed => true
    | _ => false
  failed := trace.any fun
    | .readFailed => true
    | .partFailed => true
    | _ => false

namespace UploadLog

instance : Append UploadLog where
  append first second :=
    { parts := first.parts ++ second.parts
      answers := first.answers ++ second.answers
      calls := first.calls ++ second.calls
      bytes := first.bytes ++ second.bytes
      eof := first.eof || second.eof
      completions := first.completions ++ second.completions
      completed := first.completed || second.completed
      failed := first.failed || second.failed }

theorem append_mk (log : UploadLog) (parts answers calls bytes eof completions completed failed) :
    log ++ ⟨parts, answers, calls, bytes, eof, completions, completed, failed⟩ =
      ⟨log.parts ++ parts, log.answers ++ answers, log.calls ++ calls, log.bytes ++ bytes,
        log.eof || eof, log.completions ++ completions, log.completed || completed,
        log.failed || failed⟩ := rfl

theorem append_assoc (first second third : UploadLog) :
    first ++ second ++ third = first ++ (second ++ third) := by
  ext1
  · exact List.append_assoc _ _ _
  · exact List.append_assoc _ _ _
  · exact List.append_assoc _ _ _
  · exact List.append_assoc _ _ _
  · exact Bool.or_assoc _ _ _
  · exact List.append_assoc _ _ _
  · exact Bool.or_assoc _ _ _
  · exact Bool.or_assoc _ _ _

/-- The bodies of the parts, put together. -/
def assembled (log : UploadLog) : List UInt8 :=
  (log.parts.map Prod.snd).flatten

end UploadLog

/-- The log of a step is added to the log of the trace. -/
theorem uploadLog_append (trace out : List UploadObs) :
    uploadLog (trace ++ out) = uploadLog trace ++ uploadLog out := by
  ext1
  · exact List.filterMap_append
  · exact List.filterMap_append
  · exact List.filterMap_append
  · exact List.flatMap_append
  · exact List.any_append
  · exact List.filterMap_append
  · exact List.any_append
  · exact List.any_append

theorem uploadLog_cons (o : UploadObs) (out : List UploadObs) :
    uploadLog (o :: out) = uploadLog [o] ++ uploadLog out :=
  uploadLog_append [o] out

/-! ## Sizes, bytes and entity tags -/

/-- The fields of the state that `upload_nar` leaves alone. -/
structure SameUpload (initial state : NarUploadState) : Prop where
  partSize : state.partSize = initial.partSize
  uploadId : state.uploadId = initial.uploadId
  storeBasename : state.storeBasename = initial.storeBasename

/-- What is called before the upload is completed: the next part is put, or URLs for the
next parts are asked for. -/
inductive PartCall (initial : NarUploadState) : Call → Prop where
  | uploadPart (url : Url) (partBytes : List UInt8) : PartCall initial (.uploadPart url partBytes)
  | requestPartUrls (number : NonZero 16) : PartCall initial
      (.requestPartUrls initial.uploadId (newPartNumbers number) initial.storeBasename)

/-- Nothing has been done to complete the upload. -/
structure Unfinished (initial : NarUploadState) (log : UploadLog) : Prop where
  completions : log.completions = []
  calls : ∀ call ∈ log.calls, PartCall initial call

/-- Between two parts, or while the first bytes of the next part (`tail`) are
being read; `ended` says whether the reader has come to its end. -/
structure Collecting (initial : NarUploadState) (log : UploadLog) (locals : Locals)
    (tail : List UInt8) (ended : Bool) : Prop where
  same : SameUpload initial locals.state
  whole : ∀ part ∈ log.parts, part.2.length = initial.partSize.val
  bytes : log.bytes = log.assembled ++ tail
  etags : locals.etags = log.answers.map Prod.snd
  answered : log.answers.map Prod.fst = log.parts
  number : locals.partNumber.val = log.parts.length + 1
  buffer : locals.partBytesBuf.length = initial.partSize.val
  reading : log.eof = ended
  unfinished : Unfinished initial log
  unfailed : log.failed = false

/-- While a part is being uploaded.  It is among the parts but not yet among the answers,
which is the only moment at which the two differ. -/
structure Uploading (initial : NarUploadState) (log : UploadLog) (locals : Locals) (partUrl : Url)
    (partBytes : List UInt8) : Prop where
  same : SameUpload initial locals.state
  parts : log.parts = log.answers.map Prod.fst ++ [(partUrl, partBytes)]
  whole : ∀ part ∈ log.answers.map Prod.fst, part.2.length = initial.partSize.val
  nonempty : 0 < partBytes.length
  fits : partBytes.length ≤ initial.partSize.val
  bytes : log.bytes = log.assembled
  etags : locals.etags = log.answers.map Prod.snd
  number : locals.partNumber.val = log.answers.length + 1
  reading : log.eof = decide (partBytes.length < initial.partSize.val)
  unfinished : Unfinished initial log
  unfailed : log.failed = false

/-- Once the upload is being completed.  The locals are not mentioned any more: whatever
happens from here on, the request that completes the upload has been sent, and this says
what was true of it. -/
structure Complete (initial : NarUploadState) (log : UploadLog) : Prop where
  few : log.parts.length < 2 ^ 16
  whole : ∀ part ∈ log.parts.dropLast, part.2.length = initial.partSize.val
  last : ∀ part ∈ log.parts.getLast?,
    0 < part.2.length ∧ part.2.length ≤ initial.partSize.val
  bytes : log.bytes = log.assembled
  answered : log.answers.map Prod.fst = log.parts
  ended : log.eof = true
  completed : log.completions =
    [.completeNarUpload initial.uploadId (log.answers.map Prod.snd) initial.storeBasename]
  /-- What completes the upload is called last. -/
  calls : ∃ before, log.calls = before ++
    [.completeNarUpload initial.uploadId (log.answers.map Prod.snd) initial.storeBasename] ∧
      ∀ call ∈ before, PartCall initial call
  unfailed : log.failed = false

/-- The state of `upload_nar` against the log of the run: one constructor for each phase,
so that a step of the program from one phase to another is a step from one to another here. -/
inductive Assembled (initial : NarUploadState) (log : UploadLog) : Upload E → Prop where
  | top {locals} (known : Collecting initial log locals [] false) : Assembled initial log (.top locals)
  | requestingUrls {locals} (known : Collecting initial log locals [] false) :
      Assembled initial log (.requestingUrls locals)
  | filling {locals partUrl numRead}
      (known : Collecting initial log locals (locals.partBytesBuf.take numRead) false)
      (room : numRead < initial.partSize.val) :
      Assembled initial log (.filling locals partUrl numRead)
  | uploadingPart {locals partUrl partBytes}
      (known : Uploading initial log locals partUrl partBytes) :
      Assembled initial log (.uploadingPart locals partUrl partBytes)
  | completing {locals} (same : SameUpload initial locals.state)
      (known : Complete initial log) : Assembled initial log (.completing locals)
  | returned {state} (same : SameUpload initial state) (known : Complete initial log)
      (succeeded : log.completed = true) : Assembled initial log (.returned state (.ok ()))
  | failed {state e} (same : SameUpload initial state)
      (known : Unfinished initial log ∨ Complete initial log) :
      Assembled initial log (.returned state (.error e))

section Steps

variable {fmt cache} {initial : NarUploadState} {log : UploadLog} {locals : Locals}
  {tail : List UInt8} {ended : Bool}

/-- Outputs that the log does not read leave it as it is. -/
theorem UploadLog.append_nothing (log : UploadLog) : log ++ {} = log := by
  simp only [UploadLog.append_mk, List.append_nil, Bool.or_false]

/-- Nothing has been done. -/
theorem assembled_start (state : NarUploadState) :
    Assembled state (uploadLog []) (Upload.start state : Upload E) :=
  .top
    { same := ⟨rfl, rfl, rfl⟩, whole := by simp [uploadLog], bytes := rfl, etags := rfl,
      answered := rfl, number := rfl, buffer := List.length_replicate, reading := rfl,
      unfinished := ⟨rfl, by simp [uploadLog]⟩, unfailed := rfl }

/-- The URLs that are left do not matter. -/
theorem Collecting.withPartUrls (known : Collecting initial log locals tail ended)
    (partUrls : List Url) : Collecting initial log (locals.withPartUrls partUrls) tail ended :=
  { known with same := ⟨known.same.1, known.same.2, known.same.3⟩ }

/-- One more call that does not complete the upload. -/
theorem Unfinished.call (known : Unfinished initial log) {call : Call}
    (part : PartCall initial call) (more : List (Url × List UInt8)) :
    Unfinished initial (log ++ { parts := more, calls := [call] }) :=
  ⟨(List.append_nil _).trans known.completions,
    List.forall_mem_append.mpr ⟨known.calls, List.forall_mem_singleton.mpr part⟩⟩

/-- The call for the URLs of the next parts. -/
theorem SameUpload.partUrlsCall (same : SameUpload initial locals.state) :
    PartCall initial (Upload.partUrlsCall locals) := by
  rw [Upload.partUrlsCall, same.uploadId, same.storeBasename]
  exact .requestPartUrls _

/-- URLs are asked for. -/
theorem Collecting.requestUrls (known : Collecting initial log locals tail ended) :
    Collecting initial (log ++ { calls := [Upload.partUrlsCall locals] })
      (locals.withPartUrls []) tail ended := by
  have unfinished := known.unfinished.call known.same.partUrlsCall []
  have known := known.withPartUrls []
  simp only [UploadLog.append_mk, List.append_nil, Bool.or_false] at unfinished ⊢
  exact { known with unfinished }

/-- The reader has come to its end. -/
theorem Collecting.reachEnd (known : Collecting initial log locals tail false) :
    Collecting initial (log ++ { eof := true }) locals tail true := by
  simp only [UploadLog.append_mk, List.append_nil, Bool.or_false]
  exact { known with
    reading := Bool.or_true _
    unfinished := ⟨known.unfinished.completions, known.unfinished.calls⟩ }

/-- A chunk has been read into the buffer. -/
theorem Collecting.receive {numRead : ℕ} {chunk : List UInt8}
    (known : Collecting initial log locals (locals.partBytesBuf.take numRead) false)
    (inside : numRead + chunk.length ≤ locals.partBytesBuf.length) :
    Collecting initial (log ++ { bytes := chunk }) (locals.receive numRead chunk)
      ((locals.receive numRead chunk).partBytesBuf.take (numRead + chunk.length)) false := by
  simp only [UploadLog.append_mk, List.append_nil, Bool.or_false]
  exact { known with
    bytes := by
      show log.bytes ++ chunk =
        log.assembled ++ (overwrite locals.partBytesBuf numRead chunk).take _
      rw [known.bytes, take_overwrite inside, List.append_assoc]
    buffer := (length_overwrite inside).trans known.buffer
    unfinished := ⟨known.unfinished.completions, known.unfinished.calls⟩ }

/-- Completing the upload, when all the parts have been answered. -/
theorem complete_assembled (same : SameUpload initial locals.state)
    (few : log.parts.length < 2 ^ 16)
    (whole : ∀ part ∈ log.parts.dropLast, part.2.length = initial.partSize.val)
    (last : ∀ part ∈ log.parts.getLast?,
      0 < part.2.length ∧ part.2.length ≤ initial.partSize.val)
    (bytes : log.bytes = log.assembled) (etags : locals.etags = log.answers.map Prod.snd)
    (answered : log.answers.map Prod.fst = log.parts) (ended : log.eof = true)
    (unfinished : Unfinished initial log) (unfailed : log.failed = false) :
    Assembled initial
      (log ++ { calls := [Upload.completeCall locals], completions := [Upload.completeCall locals] })
      (.completing locals : Upload E) := by
  have call : Upload.completeCall locals = .completeNarUpload initial.uploadId
      (log.answers.map Prod.snd) initial.storeBasename := by
    rw [Upload.completeCall, same.uploadId, same.storeBasename, etags]
  simp only [UploadLog.append_mk, List.append_nil, Bool.or_false]
  refine .completing same
    { few, whole, last, bytes, answered, ended, completed := ?_, unfailed,
      calls := ⟨log.calls, congrArg (log.calls ++ [·]) call, unfinished.calls⟩ }
  rw [unfinished.completions, call]
  rfl

/-- Nothing follows the parts that have been uploaded. -/
theorem Collecting.complete (known : Collecting initial log locals [] true) :
    Assembled initial
      (log ++ { calls := [Upload.completeCall locals], completions := [Upload.completeCall locals] })
      (.completing locals : Upload E) := by
  refine complete_assembled known.same ?_ (fun part member => known.whole part
    (List.dropLast_subset _ member)) ?_ ?_ known.etags known.answered known.reading
    known.unfinished known.unfailed
  · have := known.number
    have := locals.partNumber.lt
    omega
  · intro part member
    rw [known.whole part (List.mem_of_mem_getLast? member)]
    exact ⟨initial.partSize.pos, Nat.le_refl _⟩
  · simpa using known.bytes

/-- The next part is uploaded; it is the last one if it is not full. -/
theorem Collecting.upload {partUrl : Url} {partBytes : List UInt8}
    (known : Collecting initial log locals partBytes
      (decide (partBytes.length < initial.partSize.val)))
    (nonempty : 0 < partBytes.length) (fits : partBytes.length ≤ initial.partSize.val) :
    Assembled initial
      (log ++ { parts := [(partUrl, partBytes)], calls := [.uploadPart partUrl partBytes] })
      (.uploadingPart locals partUrl partBytes : Upload E) := by
  have unfinished := known.unfinished.call (.uploadPart partUrl partBytes) [(partUrl, partBytes)]
  simp only [UploadLog.append_mk, List.append_nil, Bool.or_false] at unfinished ⊢
  exact .uploadingPart
    { same := known.same,
      parts := by
        show log.parts ++ _ = log.answers.map Prod.fst ++ _
        rw [known.answered],
      whole := by
        show ∀ part ∈ log.answers.map Prod.fst, _
        rw [known.answered]
        exact known.whole,
      nonempty, fits,
      bytes := by
        show log.bytes = _
        rw [known.bytes]
        simp [UploadLog.assembled],
      etags := known.etags,
      number := by
        show _ = log.answers.length + 1
        rw [known.number, ← known.answered, List.length_map],
      reading := known.reading, unfinished, unfailed := known.unfailed }

/-- The part has been answered. -/
theorem Uploading.answered {partUrl : Url} {partBytes : List UInt8}
    (known : Uploading initial log locals partUrl partBytes) (etag : Etag) :
    (log.answers ++ [((partUrl, partBytes), etag)]).map Prod.fst = log.parts := by
  rw [List.map_append, known.parts]
  rfl

/-- The etag of a part takes its place behind the others. -/
theorem Uploading.etags_append {partUrl : Url} {partBytes : List UInt8}
    (known : Uploading initial log locals partUrl partBytes) (etag : Etag) :
    locals.etags ++ [etag] =
      (log.answers ++ [((partUrl, partBytes), etag)]).map Prod.snd := by
  rw [List.map_append, known.etags]
  rfl

/-- A part that is not full is the last one. -/
theorem Uploading.allParts {partUrl : Url} {partBytes : List UInt8}
    (known : Uploading initial log locals partUrl partBytes) (etag : Etag)
    (short : partBytes.length < initial.partSize.val) :
    Assembled initial
      (log ++ { answers := [((partUrl, partBytes), etag)] } ++
        { calls := [Upload.completeCall { locals with etags := locals.etags ++ [etag] }]
          completions := [Upload.completeCall { locals with etags := locals.etags ++ [etag] }] })
      (.completing { locals with etags := locals.etags ++ [etag] } : Upload E) := by
  refine complete_assembled ⟨known.same.1, known.same.2, known.same.3⟩ ?_ ?_ ?_ ?_ ?_ ?_ ?_ ?_ ?_ <;>
    simp only [UploadLog.append_mk, List.append_nil, Bool.or_false]
  · have := known.number
    have := locals.partNumber.lt
    simp only [known.parts, List.length_append, List.length_map, List.length_singleton]
    omega
  · rw [known.parts, List.dropLast_concat]
    exact known.whole
  · rw [known.parts, List.getLast?_concat]
    rintro part ⟨⟩
    exact ⟨known.nonempty, known.fits⟩
  · exact known.bytes
  · exact known.etags_append etag
  · exact known.answered etag
  · rw [known.reading, decide_eq_true short]
  · exact ⟨known.unfinished.completions, known.unfinished.calls⟩
  · exact known.unfailed

/-- A full part is followed by the next one. -/
theorem Uploading.nextPart {partUrl : Url} {partBytes : List UInt8}
    (known : Uploading initial log locals partUrl partBytes) (etag : Etag)
    (full : initial.partSize.val ≤ partBytes.length) {partNumber : NonZero 16}
    (next : partNumber.val = locals.partNumber.val + 1) {partBytesBuf : List UInt8}
    (buffer : partBytesBuf.length = initial.partSize.val) :
    Collecting initial (log ++ { answers := [((partUrl, partBytes), etag)] })
      { locals with partNumber, etags := locals.etags ++ [etag], partBytesBuf } [] false := by
  simp only [UploadLog.append_mk, List.append_nil, Bool.or_false]
  have whole : partBytes.length = initial.partSize.val := Nat.le_antisymm known.fits full
  exact
    { same := known.same,
      whole := by
        intro part member
        rw [known.parts] at member
        rcases List.mem_append.mp member with before | now
        · exact known.whole part before
        · rw [List.mem_singleton.mp now]
          exact whole
      bytes := known.bytes.trans (List.append_nil _).symm, etags := known.etags_append etag,
      answered := known.answered etag,
      number := by
        show partNumber.val = log.parts.length + 1
        rw [next, known.number, known.parts, List.length_append, List.length_map]
        rfl
      buffer,
      reading := by
        show log.eof = false
        rw [known.reading, decide_eq_false (Nat.not_lt_of_le full)],
      unfinished := ⟨known.unfinished.completions, known.unfinished.calls⟩
      unfailed := known.unfailed }

/-- After a failure nothing is completed. -/
theorem failed_assembled {state : NarUploadState} {e : CacheRequestError E}
    (same : SameUpload initial state) (unfinished : Unfinished initial log) (failed : UploadLog)
    (calls : failed.calls = []) (completions : failed.completions = []) :
    Assembled initial (log ++ failed) (.returned state (.error e)) := by
  refine .failed same (Or.inl ⟨?_, ?_⟩)
  · show log.completions ++ failed.completions = []
    rw [unfinished.completions, completions, List.append_nil]
  · show ∀ call ∈ log.calls ++ failed.calls, PartCall initial call
    rw [calls, List.append_nil]
    exact unfinished.calls

/-- **Every step keeps the upload assembled.** -/
theorem Assembled.step {out : List UploadObs} {upload upload' : Upload E}
    {input : UploadInput E} (known : Assembled initial log upload)
    (h : Upload.step fmt cache upload input = some (upload', out)) :
    Assembled initial (log ++ uploadLog out) upload' := by
  have step := Upload.step_spec h
  clear h
  cases known with
  | top known =>
      cases step with
      | requestUrls unusable => exact .requestingUrls known.requestUrls
      | takeUrl urls fresh =>
          show Assembled initial (log ++ {}) _
          rw [log.append_nothing]
          exact .filling (known.withPartUrls _) initial.partSize.pos
  | requestingUrls known =>
      cases step with
      | urlsFailed answer => exact failed_assembled known.same known.unfinished _ rfl rfl
      | receiveUrls answer =>
          show Assembled initial (log ++ {}) _
          rw [log.append_nothing]
          exact .top { known with same := ⟨known.same.1, known.same.2, known.same.3⟩ }
  | filling known room =>
      rename_i locals partUrl numRead
      have length : (locals.partBytesBuf.take numRead).length = numRead := by
        rw [List.length_take, known.buffer]
        omega
      cases step with
      | pending =>
          show Assembled initial (log ++ {}) _
          rw [log.append_nothing]
          exact .filling known room
      | readFailed => exact failed_assembled known.same known.unfinished _ rfl rfl
      | nothingLeft =>
          rw [uploadLog_cons, ← UploadLog.append_assoc]
          exact known.reachEnd.complete
      | lastPart nonempty =>
          -- the reader ends while there is room, so this part is the last one
          rw [uploadLog_cons, ← UploadLog.append_assoc]
          refine Collecting.upload ?_ (by omega) (by omega)
          rw [length, decide_eq_true room]
          exact known.reachEnd
      | readMore nonempty more =>
          rename_i chunk
          rw [show uploadLog [.read chunk] = { bytes := chunk } by simp [uploadLog]]
          exact .filling (known.receive (Nat.le_of_lt more)) (known.buffer ▸ more)
      | fullPart nonempty full =>
          rename_i chunk
          have received := known.receive (Nat.le_of_eq full)
          have whole : (overwrite locals.partBytesBuf numRead chunk).length =
              initial.partSize.val :=
            (length_overwrite (Nat.le_of_eq full)).trans known.buffer
          rw [uploadLog_cons, ← UploadLog.append_assoc,
            show uploadLog [.read chunk] = { bytes := chunk } by simp [uploadLog]]
          refine Collecting.upload ?_ (whole ▸ initial.partSize.pos) (Nat.le_of_eq whole)
          rw [whole, decide_eq_false (Nat.lt_irrefl _)]
          rwa [List.take_of_length_le (Nat.le_of_eq (by
            rw [full]; exact length_overwrite (Nat.le_of_eq full)))] at received
  | uploadingPart known =>
      cases step with
      | partFailed answer => exact failed_assembled known.same known.unfinished _ rfl rfl
      | allParts answer short =>
          rw [uploadLog_cons, ← UploadLog.append_assoc]
          exact known.allParts _ (known.same.partSize ▸ short)
      | tooManyParts answer full largest =>
          exact failed_assembled known.same known.unfinished _ rfl rfl
      | nextPart answer full next =>
          rw [known.same.partSize] at full
          -- the buffer is kept if the part was the only owner, and else a new one
          refine .top (known.nextPart _ full next ?_)
          split
          · exact Nat.le_antisymm known.fits full
          · rw [List.length_replicate, known.same.partSize]
  | completing same known =>
      cases step with
      | completionFailed answer =>
          show Assembled initial (log ++ {}) _
          rw [log.append_nothing]
          exact .failed same (Or.inr known)
      | completed answer =>
          show Assembled initial (log ++ { completed := true }) _
          simp only [UploadLog.append_mk, List.append_nil, Bool.or_false, Bool.or_true]
          exact .returned same { known with } rfl
  | returned same known succeeded => cases step
  | failed same known => cases step

end Steps

/-! ## What the phases have in common -/

section Consequences

variable {initial : NarUploadState} {log : UploadLog} {upload : Upload E}

/-- Either nothing has been done to complete the upload, or everything has been
uploaded. -/
theorem Assembled.unfinished_or_complete (known : Assembled initial log upload) :
    Unfinished initial log ∨ Complete initial log := by
  cases known with
  | top known => exact Or.inl known.unfinished
  | requestingUrls known => exact Or.inl known.unfinished
  | filling known _ => exact Or.inl known.unfinished
  | uploadingPart known => exact Or.inl known.unfinished
  | completing _ known => exact Or.inr known
  | returned _ known _ => exact Or.inr known
  | failed _ known => exact known

/-- The upload is completed only after the reader has ended. -/
theorem Assembled.unfinished_of_reading (known : Assembled initial log upload)
    (reading : log.eof = false) : Unfinished initial log := by
  rcases known.unfinished_or_complete with unfinished | complete
  · exact unfinished
  · rw [complete.ended] at reading
    contradiction

/-- When the reader or a part has failed, the upload is not completed. -/
theorem Assembled.unfinished_of_failed (known : Assembled initial log upload)
    (failed : log.failed = true) : Unfinished initial log := by
  rcases known.unfinished_or_complete with unfinished | complete
  · exact unfinished
  · rw [complete.unfailed] at failed
    contradiction

/-- Parts of bounded size, put together. -/
theorem length_flatten_le {parts : List (List UInt8)} {size : ℕ}
    (bounded : ∀ part ∈ parts, part.length ≤ size) :
    parts.flatten.length ≤ parts.length * size := by
  induction parts with
  | nil => exact Nat.zero_le _
  | cons part rest ih =>
      obtain ⟨first, others⟩ := List.forall_mem_cons.mp bounded
      have := ih others
      rw [List.flatten_cons, List.length_append, List.length_cons, Nat.succ_mul]
      omega

/-- What has been uploaded is far smaller than what 64 bits can count. -/
theorem Complete.length_assembled_lt (known : Complete initial log) :
    log.assembled.length < 2 ^ 64 := by
  have bounded : ∀ part ∈ log.parts.map Prod.snd, part.length ≤ initial.partSize.val := by
    intro body isBody
    obtain ⟨part, member, rfl⟩ := List.mem_map.mp isBody
    -- all parts but the last are whole
    rcases List.eq_nil_or_concat log.parts with none | ⟨before, last, split⟩
    · rw [none] at member
      cases member
    · rw [List.concat_eq_append] at split
      have whole := known.whole
      have fits := known.last
      rw [split, List.dropLast_concat] at whole
      rw [split, List.getLast?_concat] at fits
      rw [split] at member
      rcases List.mem_append.mp member with early | late
      · exact Nat.le_of_eq (whole part early)
      · rw [List.mem_singleton.mp late]
        exact (fits last rfl).2
  have few := known.few
  have size := initial.partSize.lt
  calc log.assembled.length
      ≤ (log.parts.map Prod.snd).length * initial.partSize.val := length_flatten_le bounded
    _ = log.parts.length * initial.partSize.val := by rw [List.length_map]
    _ ≤ 2 ^ 16 * 2 ^ 32 := Nat.mul_le_mul (Nat.le_of_lt few) (Nat.le_of_lt size)
    _ < 2 ^ 64 := by decide

end Consequences

/-! ## What a step reads and uploads -/

/-- The bytes that an input delivers. -/
def UploadInput.delivered : UploadInput E → List UInt8
  | .read (.ready (.ok bytes)) => bytes
  | _ => []

/-- The input is the end of the stream. -/
def UploadInput.ends : UploadInput E → Bool
  | .read (.ready (.ok [])) => true
  | _ => false

/-- A step reads what the input delivers.  It uploads a part only when the buffer
was being filled, to the URL that the buffer was filled for. -/
structure Moves (upload : Upload E) (input : UploadInput E) (out : List UploadObs) : Prop where
  bytes : (uploadLog out).bytes = input.delivered
  eof : (uploadLog out).eof = input.ends
  parts : (uploadLog out).parts = [] ∨ ∃ locals partUrl numRead partBytes,
    upload = .filling locals partUrl numRead ∧ (uploadLog out).parts = [(partUrl, partBytes)]

/-- **What a step reads and uploads.** -/
theorem Upload.step_moves {fmt cache} {upload upload' : Upload E} {input : UploadInput E}
    {out : List UploadObs} (h : Upload.step fmt cache upload input = some (upload', out)) :
    Moves upload input out := by
  cases Upload.step_spec h with
  | requestUrls | takeUrl | urlsFailed | receiveUrls | pending | readFailed | nothingLeft
  | partFailed | allParts | tooManyParts | nextPart | completionFailed | completed =>
      exact ⟨rfl, rfl, Or.inl rfl⟩
  | lastPart => exact ⟨rfl, rfl, Or.inr ⟨_, _, _, _, rfl, rfl⟩⟩
  | readMore nonempty =>
      rename_i chunk _
      obtain ⟨b, data, rfl⟩ := List.exists_cons_of_ne_nil nonempty
      exact ⟨List.append_nil _, rfl, Or.inl rfl⟩
  | fullPart nonempty =>
      rename_i chunk _
      obtain ⟨b, data, rfl⟩ := List.exists_cons_of_ne_nil nonempty
      exact ⟨List.append_nil _, rfl, Or.inr ⟨_, _, _, _, rfl, rfl⟩⟩

end Sub60

end CacheAction
