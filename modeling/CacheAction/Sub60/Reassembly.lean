import CacheAction.Sub60.Exchange
import Mathlib.Data.List.Forall2

/-!
# A completed upload is the NAR

The server issues URLs for part numbers; which URL is for which number is the
relation `Issued`.  `Numbered` says that the queue of `upload_nar` holds the
URLs of the next parts, in order, provided that the server answers every request
with one URL for each number asked for (`ServerHonest`).

With `Assembled`, and a reader that comes to its end only after the whole NAR
(`ReadsNar`), this gives `upload_reassembles`: when `upload_nar` returns `Ok`,
what the server has been told to put together is the NAR.  It is stated about what
the server sees: the requests sent to it, and its own answers.

The server knows a part by the number for which it has issued the URL, and not by the order in
which the parts arrive.  So it is not enough that the bodies are in order: the `k`-th one must
have been put to a URL for `k`.  The queue of URLs is what keeps them in step, since URLs are
requested for the part number that the program is at, and a batch that has expired is thrown
away as a whole.  A server that answers a request for four numbers with three URLs would not
bring them out of step either, but one that answers with the URLs of other numbers would, and
no program could tell (`ServerHonest`).
-/

namespace CacheAction

namespace Sub60

variable {E : Type} (fmt : Formats E) (cache : Sub60Cache) (Issued : Url → ℕ → Prop)

/-! ## Part numbers -/

/-- The URLs are those of the parts `number`, `number + 1`, ... in order. -/
def QueueFrom (urls : List Url) (number : ℕ) : Prop :=
  ∀ i url, urls[i]? = some url → Issued url (number + i)

/-- Every answered request for URLs got one URL for each part number, in the order in which the
numbers were given.  That the numbers are those of the request which was sent, and the URLs
those of the answer, is not assumed but shown (`BatchesRequested`). -/
def ServerHonest (trace : List UploadObs) : Prop :=
  ∀ numbers urls, .partUrls numbers urls ∈ trace →
    List.Forall₂ (fun url number => Issued url number.val) urls numbers

/-- The parts have been put to the URLs of their numbers. -/
def NumberedParts (parts : List (Url × List UInt8)) : Prop :=
  ∀ i part, parts[i]? = some part → Issued part.1 (i + 1)

/-- The URLs held by `upload_nar` are those of the next parts. -/
inductive Numbered : Upload E → Prop where
  | top {locals} (queue : QueueFrom Issued locals.state.partUrls locals.partNumber.val) :
      Numbered (.top locals)
  | requestingUrls {locals} (empty : locals.state.partUrls = []) :
      Numbered (.requestingUrls locals)
  | filling {locals partUrl numRead} (next : Issued partUrl locals.partNumber.val)
      (queue : QueueFrom Issued locals.state.partUrls (locals.partNumber.val + 1)) :
      Numbered (.filling locals partUrl numRead)
  | uploadingPart {locals partUrl partBytes}
      (queue : QueueFrom Issued locals.state.partUrls (locals.partNumber.val + 1)) :
      Numbered (.uploadingPart locals partUrl partBytes)
  | completing {locals} : Numbered (.completing locals)
  | returned {state result} : Numbered (.returned state result)

section Numbers

variable {Issued}

theorem QueueFrom.nil (number : ℕ) : QueueFrom Issued [] number := by
  intro i url h
  simp at h

/-- The first URL is for the next part, the others for those after it. -/
theorem queueFrom_cons {url : Url} {rest : List Url} {number : ℕ} :
    QueueFrom Issued (url :: rest) number ↔
      Issued url number ∧ QueueFrom Issued rest (number + 1) := by
  constructor
  · intro queue
    refine ⟨queue 0 url rfl, fun i next h => ?_⟩
    have := queue (i + 1) next h
    rwa [Nat.add_comm i 1, ← Nat.add_assoc] at this
  · rintro ⟨first, queue⟩ i next h
    rcases i with _ | i
    · obtain rfl := Option.some.inj h
      exact first
    · rw [Nat.add_comm i 1, ← Nat.add_assoc]
      exact queue i next h

/-- One URL for each of the numbers from `number` on. -/
theorem queueFrom_go (n : ℕ) {urls : List Url} {number : NonZero 16}
    (honest : List.Forall₂ (fun url number => Issued url number.val) urls
      (newPartNumbers.go n (some number))) :
    QueueFrom Issued urls number.val := by
  induction n generalizing urls number with
  | zero =>
      cases honest
      exact QueueFrom.nil _
  | succ n ih =>
      rcases honest with _ | ⟨first, others⟩
      refine queueFrom_cons.mpr ⟨first, ?_⟩
      cases next : number.checkedAdd 1 with
      | none =>
          rw [next] at others
          have : newPartNumbers.go n none = [] := by cases n <;> rfl
          rw [this] at others
          cases others
          exact QueueFrom.nil _
      | some following =>
          rw [next] at others
          rw [← NonZero.checkedAdd_eq_some.mp next]
          exact ih others

end Numbers

section Steps

variable {fmt cache Issued} {initial : NarUploadState} {trace out : List UploadObs}
  {upload upload' : Upload E} {input : UploadInput E} {locals : Locals}

/-- **The queue always holds the URLs of the next parts.** -/
theorem Numbered.step (known : Numbered Issued upload) (honest : ServerHonest Issued out)
    (h : Upload.step fmt cache upload input = some (upload', out)) :
    Numbered Issued upload' := by
  have step := Upload.step_spec h
  clear h
  cases known with
  | top queue =>
      cases step with
      | requestUrls unusable => exact .requestingUrls rfl
      | takeUrl urls fresh =>
          rw [urls, queueFrom_cons] at queue
          exact .filling queue.1 queue.2
  | requestingUrls empty =>
      cases step with
      | urlsFailed answer => exact .returned
      | receiveUrls answer =>
          refine .top ?_
          dsimp only
          rw [empty]
          exact queueFrom_go 4 (honest _ _ (List.mem_singleton.mpr rfl))
  | filling next queue =>
      cases step with
      | pending => exact .filling next queue
      | readFailed => exact .returned
      | nothingLeft => exact .completing
      | lastPart nonempty => exact .uploadingPart queue
      | readMore nonempty room => exact .filling next queue
      | fullPart nonempty full => exact .uploadingPart queue
  | uploadingPart queue =>
      cases step with
      | partFailed answer => exact .returned
      | allParts answer short => exact .completing
      | tooManyParts answer full largest => exact .returned
      | nextPart answer full following =>
          refine .top ?_
          dsimp only
          rw [following]
          exact queue
  | completing => cases step <;> exact .returned
  | returned => cases step

/-- A part is put to the URL that has been taken for it, and that was the first of the queue. -/
theorem NumberedParts.step (parts : NumberedParts Issued (uploadLog trace).parts)
    (assembled : Assembled initial (uploadLog trace) upload) (known : Numbered Issued upload)
    (h : Upload.step fmt cache upload input = some (upload', out)) :
    NumberedParts Issued (uploadLog (trace ++ out)).parts := by
  rw [uploadLog_append]
  intro i part get
  change ((uploadLog trace).parts ++ (uploadLog out).parts)[i]? = some part at get
  rcases (Upload.step_moves h).parts with
    none | ⟨locals, partUrl, numRead, partBytes, rfl, put⟩
  · rw [none, List.append_nil] at get
    exact parts i part get
  · rw [put, List.getElem?_append] at get
    split at get
    · exact parts i part get
    · rename_i beyond
      rw [List.getElem?_singleton] at get
      split at get
      · rename_i index
        cases get
        cases known with
        | filling next queue =>
            cases assembled with
            | filling collecting room =>
                rw [collecting.number] at next
                rwa [show i = (uploadLog trace).parts.length by omega]
      · cases get

/-- What is known of a run with an honest server, one step further. -/
theorem known_step
    (known : ServerHonest Issued trace → Numbered Issued upload ∧
      NumberedParts Issued (uploadLog trace).parts ∧ Assembled initial (uploadLog trace) upload)
    (h : Upload.step fmt cache upload input = some (upload', out))
    (honest : ServerHonest Issued (trace ++ out)) :
    Numbered Issued upload' ∧ NumberedParts Issued (uploadLog (trace ++ out)).parts ∧
      Assembled initial (uploadLog (trace ++ out)) upload' := by
  obtain ⟨numbered, parts, assembled⟩ := known fun numbers urls member =>
    honest numbers urls (List.mem_append_left _ member)
  have honestOut : ServerHonest Issued out := fun numbers urls member =>
    honest numbers urls (List.mem_append_right _ member)
  refine ⟨numbered.step honestOut h, parts.step assembled numbered h, ?_⟩
  rw [uploadLog_append]
  exact assembled.step h

end Steps

/-! ## The whole run -/

/-- The reader delivers `nar` and comes to its end only after all of it. -/
structure ReadsNar (nar : List UInt8) (trace : List UploadObs) : Prop where
  delivers : (uploadLog trace).bytes <+: nar
  ends : ∀ pre post, trace = pre ++ .eof :: post → (uploadLog pre).bytes = nar

/-- What the server has been told to put together is the NAR. -/
structure Reassembled (initial : NarUploadState) (nar : List UInt8) (is : List (UploadInput E))
    (trace : List UploadObs) : Prop where
  /-- Each batch of URLs was asked for with the numbers that the server has issued it for, -/
  requested : BatchesRequested fmt cache initial is trace
  /-- and the `k`-th part was put to a URL issued for part number `k`. -/
  issued : NumberedParts Issued (partsPut (uploadRequests fmt cache trace))
  /-- All parts but the last are of full size. -/
  whole : ∀ part ∈ (partsPut (uploadRequests fmt cache trace)).dropLast,
    part.2.length = initial.partSize.val
  /-- The last part is neither empty nor larger than the others. -/
  last : ∀ part ∈ (partsPut (uploadRequests fmt cache trace)).getLast?,
    0 < part.2.length ∧ part.2.length ≤ initial.partSize.val
  /-- The parts have been answered in order, one entity tag each, -/
  answered : (uploadLog trace).answers.map Prod.fst = partsPut (uploadRequests fmt cache trace)
  /-- and the entity tags are those of the answers. -/
  etags : (uploadLog trace).answers.map Prod.snd = is.filterMap (UploadInput.etag? fmt)
  /-- There was one request to complete the upload, the last one, with these entity tags, -/
  completed : CompletedWith fmt cache initial (is.filterMap (UploadInput.etag? fmt))
    (uploadRequests fmt cache trace)
  completions : (uploadLog trace).completions =
    [.completeNarUpload initial.uploadId ((uploadLog trace).answers.map Prod.snd)
      initial.storeBasename]
  /-- and it has been answered with a successful status. -/
  succeeded : is.any UploadInput.completes = true
  /-- The bodies put together are the NAR. -/
  nar : bytesPut (uploadRequests fmt cache trace) = nar

/-- A reader that has ended has delivered everything. -/
theorem ReadsNar.bytes_eq {nar : List UInt8} {trace : List UploadObs} (reader : ReadsNar nar trace)
    (ended : (uploadLog trace).eof = true) : (uploadLog trace).bytes = nar := by
  obtain ⟨o, member, isEof⟩ := List.any_eq_true.mp ended
  obtain rfl : o = .eof := by
    rcases o with _ | _ | _ | _ | _ | _ | _ | _ <;> simp_all
  obtain ⟨pre, post, split⟩ := List.append_of_mem member
  have before := reader.ends pre post split
  refine reader.delivers.eq_of_length_le ?_
  rw [split, uploadLog_append, ← before]
  show _ ≤ ((uploadLog pre).bytes ++ _).length
  rw [List.length_append]
  exact Nat.le_add_right _ _

/-- **Multipart upload reassembles the NAR.**

Parts, URLs and etags are those of the requests and the answers.  `initialUrls` and `server`
are about the server's side alone, that it issues a URL for every part number, in order, and
`reader` says that what has been read is the NAR; everything else is the code's. -/
theorem upload_reassembles {state state' : NarUploadState} {nar : List UInt8}
    {is : List (UploadInput E)} {trace : List UploadObs}
    (hrun : (uploadMachine fmt cache).run (Upload.start state) is =
      some (.returned state' (.ok ()), trace))
    (initialUrls : QueueFrom Issued state.partUrls 1) (server : ServerHonest Issued trace)
    (reader : ReadsNar nar trace) : Reassembled fmt cache Issued state nar is trace := by
  have start : ServerHonest Issued [] → Numbered Issued (Upload.start state : Upload E) ∧
      NumberedParts Issued (uploadLog []).parts ∧
      Assembled state (uploadLog []) (Upload.start state : Upload E) := fun _ =>
    ⟨.top initialUrls, by intro i part get; simp [uploadLog] at get, assembled_start state⟩
  have known := (uploadMachine fmt cache).run_invariant
    (I := fun upload trace => ServerHonest Issued trace → Numbered Issued upload ∧
      NumberedParts Issued (uploadLog trace).parts ∧ Assembled state (uploadLog trace) upload)
    (fun _ _ _ _ _ known hstep honest => known_step known hstep honest) start hrun
  rw [List.nil_append] at known
  obtain ⟨-, issued, assembled⟩ := known server
  cases assembled with
  | returned same known succeeded =>
      have parts := partsPut_uploadRequests fmt cache trace
      have learned := learned_of_run hrun
      exact
        { requested := batchesRequested_of_run hrun, issued := parts ▸ issued,
          whole := parts ▸ known.whole, last := parts ▸ known.last,
          answered := known.answered.trans parts.symm, etags := learned.etags,
          completed := learned.etags ▸ known.completedWith, completions := known.completed,
          succeeded := learned.completed.symm.trans succeeded,
          nar := by
            rw [bytesPut_uploadRequests, ← known.bytes]
            exact reader.bytes_eq known.ended }

/-! ## A run -/

/-- The URL of a part. -/
def partUrlOf (number : ℕ) : Url :=
  { origin := "https://storage.example", path := .hierarchical ("/part/" ++ toString number),
    suffix := "" }

/-- A server whose answers to requests for URLs are for the parts from 2 on. -/
def secondPartFormats : Formats Unit where
  encodeSegment := id
  appendPair url _ _ := url
  displayError _ := ""
  parseEtag value := .ok value
  parseNarMultiparts _ := .error ()
  parseParts _ := .ok
    { urls := [partUrlOf 2, partUrlOf 3, partUrlOf 4, partUrlOf 5], expirationTs := fromSecs 90 }
  printParts _ := ""
  printComplete _ := ""

def exampleCache : Sub60Cache where
  cacheUrl := { origin := "https://cache.example", path := "/user/cache", suffix := "" }

/-- Parts of two bytes; there is a URL for the first part only. -/
def twoByteParts : NarUploadState where
  partSize := ⟨2, by decide, by decide⟩
  partUrls := [partUrlOf 1]
  storeBasename := "hello"
  uploadId := "id"
  urlsExpirationTs := fromSecs 60

def answered (value : String) : Sent Unit :=
  .ok { status := 200, etag := some (.ok value), text := .ok "" }

/-- Three bytes are read, one or two at a time. -/
def threeBytesRun : List (UploadInput Unit) :=
  [.clock 0, .read (.ready (.ok [1])), .read .pending, .read (.ready (.ok [2])),
    .part (answered "\"a\"") true, .clock 1, .partUrls (answered ""), .clock 2,
    .read (.ready (.ok [3])), .read (.ready (.ok [])), .part (answered "\"b\"") false,
    .complete (answered "")]

def threeBytesTrace : List UploadObs :=
  [.read [1], .read [2], .called (.uploadPart (partUrlOf 1) [1, 2]),
    .uploaded (partUrlOf 1) [1, 2] "a",
    .called (.requestPartUrls "id" (newPartNumbers ⟨2, by decide, by decide⟩) "hello"),
    .partUrls (newPartNumbers ⟨2, by decide, by decide⟩)
      [partUrlOf 2, partUrlOf 3, partUrlOf 4, partUrlOf 5],
    .read [3], .eof, .called (.uploadPart (partUrlOf 2) [3]), .uploaded (partUrlOf 2) [3] "b",
    .called (.completeNarUpload "id" ["a", "b"] "hello"), .completed]

/-- Three bytes in two parts, for which URLs are requested once. -/
theorem upload_reassembles_three_bytes :
    Reassembled secondPartFormats exampleCache (fun url number => url = partUrlOf number)
      twoByteParts [1, 2, 3] threeBytesRun threeBytesTrace := by
  have hrun : (uploadMachine secondPartFormats exampleCache).run (Upload.start twoByteParts)
      threeBytesRun = some (.returned
        { twoByteParts with
          partUrls := [partUrlOf 3, partUrlOf 4, partUrlOf 5], urlsExpirationTs := fromSecs 90 }
        (.ok ()), threeBytesTrace) := by
    decide +kernel
  refine upload_reassembles secondPartFormats exampleCache _ hrun ?_ ?_ ⟨?_, ?_⟩
  · exact queueFrom_cons.mpr ⟨rfl, QueueFrom.nil _⟩
  · intro numbers urls member
    simp only [threeBytesTrace, List.mem_cons, reduceCtorEq, false_or, List.not_mem_nil,
      or_false, UploadObs.partUrls.injEq] at member
    obtain ⟨rfl, rfl⟩ := member
    exact .cons rfl (.cons rfl (.cons rfl (.cons rfl .nil)))
  · decide +kernel
  · intro pre post split
    have only : threeBytesTrace = threeBytesTrace.take 7 ++ .eof :: threeBytesTrace.drop 8 := rfl
    rw [only, List.append_cons_inj_of_notMem (by decide) (by decide)] at split
    rw [← split.1]
    rfl

end Sub60

end CacheAction
