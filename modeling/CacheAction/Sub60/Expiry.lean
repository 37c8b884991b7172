import CacheAction.Foundations.History
import CacheAction.Sub60.Reassembly

/-!
# URLs that expire

Every batch of URLs comes with the time at which it expires.  `upload_nar` keeps
one such time for its whole queue and compares it with the clock before it takes
a URL, ten seconds in advance.  It then reads the part, and only then puts it to
the URL.

Here the steps of `upload_nar` are taken at times of a clock on the wall, and a
history variable remembers of every URL which batch it came with.  The queue
never holds the URLs of two batches, so the one time that is kept is the right
one (`Dated`).  What is left is the time spent reading:
`uploads_unexpired_iff` says that no part is put to an expired URL exactly if
reading each part takes less time than its URL had left when the clock was
looked at.  Reading at most ten seconds is enough
(`uploads_unexpired_of_prompt`), but the reader of a NAR may take longer
(`slow_part_expires`).

The times are those of a clock that every input carries, and they are arbitrary: nothing says
that they increase, since `SystemTime` can be set back.  Which batch a URL came with is not in
the program, so it is a history variable, kept beside the state by what can be seen from
outside: the answers to the requests for URLs, and the URLs that parts are put to.
-/

namespace CacheAction

namespace Sub60

variable {E : Type} (fmt : Formats E) (cache : Sub60Cache)

/-! ## Times and batches -/

/-- Readings of the clock show the time. -/
def UploadInput.agrees (time : Duration) : UploadInput E → Bool
  | .clock now => now == time
  | _ => true

/-- `upload_nar` with a clock on the wall: every input comes at a time. -/
def timedMachine : Machine (Upload E) (Duration × UploadInput E) UploadObs where
  step upload input :=
    if input.2.agrees input.1 then Upload.step fmt cache upload input.2 else none

/-- A URL, with the time at which the batch it came with expires. -/
structure DatedUrl where
  url : Url
  expirationTs : Duration
  deriving DecidableEq

/-- What has happened. -/
structure UploadHistory where
  /-- The time. -/
  now : Duration
  /-- The time at which the clock was last looked at. -/
  looked : Duration
  /-- The URLs that are left. -/
  queue : List DatedUrl
  /-- The URL that has been taken for the current part. -/
  taken : Option DatedUrl
  deriving DecidableEq

namespace UploadHistory

/-- The URLs of one batch. -/
def batch (urls : List Url) (expirationTs : Duration) : List DatedUrl :=
  urls.map fun url => { url, expirationTs }

/-- The history when `upload_nar` is called. -/
def new (state : NarUploadState) : UploadHistory :=
  { now := 0, looked := 0, queue := batch state.partUrls state.urlsExpirationTs, taken := none }

/-- What the queue of `upload_nar` goes through: it is cleared, its first URL is
taken, a batch is added to it. -/
def update (upload : Upload E) (h : UploadHistory) (input : Duration × UploadInput E) :
    UploadHistory :=
  let h := { h with now := input.1 }
  match upload, input.2 with
  | .top locals, .clock now =>
      let queue := if now + fromSecs 10 ≥ locals.state.urlsExpirationTs then [] else h.queue
      { h with looked := now, queue := queue.tail, taken := queue.head? }
  | .requestingUrls locals, .partUrls sent =>
      match requestPartUrls fmt (cache.request fmt (Upload.partUrlsCall locals)) sent with
      | .error _ => h
      | .ok parts => { h with queue := h.queue ++ batch parts.urls parts.expirationTs }
  | _, _ => h

end UploadHistory

/-- `upload_nar`, with a clock and the history of its URLs. -/
def datedMachine :
    Machine (Upload E × UploadHistory) (Duration × UploadInput E) (UploadHistory × UploadObs) :=
  (timedMachine fmt cache).withHistory (UploadHistory.update fmt cache)

/-- The URL that a part is put to. -/
def UploadObs.putTo : UploadObs → Option Url
  | .called (.uploadPart url _) => some url
  | _ => none

/-- When a part is put to a URL, this is the URL that has been taken, and the
time is before the one at which its batch expires. -/
def Unexpired (e : UploadHistory × UploadObs) : Prop :=
  ∀ url ∈ e.2.putTo, ∃ dated ∈ e.1.taken, dated.url = url ∧ e.1.now < dated.expirationTs

instance (e : UploadHistory × UploadObs) : Decidable (Unexpired e) :=
  inferInstanceAs (Decidable (∀ url ∈ e.2.putTo, _))

/-- The answer to a poll fills the buffer, or ends the last part. -/
def CompletesPart (locals : Locals) (numRead : ℕ) : UploadInput E → Prop
  | .read (.ready (.ok [])) => numRead ≠ 0
  | .read (.ready (.ok data)) => numRead + data.length = locals.partBytesBuf.length
  | _ => False

/-- A part that has been read took less time than its URL had left when the clock
was looked at. -/
def InTime (s : Upload E × UploadHistory) (input : Duration × UploadInput E) : Prop :=
  ∀ locals partUrl numRead, s.1 = .filling locals partUrl numRead →
    CompletesPart locals numRead input.2 →
      input.1 - s.2.looked < locals.state.urlsExpirationTs - s.2.looked

/-! ## One time for the whole queue -/

/-- The queue of the history is the one of `upload_nar`, and all of it expires at
the time that is kept. -/
structure Tracks (locals : Locals) (h : UploadHistory) : Prop where
  urls : h.queue.map DatedUrl.url = locals.state.partUrls
  dates : ∀ dated ∈ h.queue, dated.expirationTs = locals.state.urlsExpirationTs

/-- The history against the state of `upload_nar`. -/
inductive Dated : Upload E → UploadHistory → Prop where
  | top {locals h} (tracks : Tracks locals h) : Dated (.top locals) h
  | requestingUrls {locals h} (tracks : Tracks locals h) (empty : h.queue = []) :
      Dated (.requestingUrls locals) h
  | filling {locals partUrl numRead h} (tracks : Tracks locals h)
      (taken : h.taken = some ⟨partUrl, locals.state.urlsExpirationTs⟩)
      (fresh : h.looked + fromSecs 10 < locals.state.urlsExpirationTs) :
      Dated (.filling locals partUrl numRead) h
  | uploadingPart {locals partUrl partBytes h} (tracks : Tracks locals h) :
      Dated (.uploadingPart locals partUrl partBytes) h
  | completing {locals h} : Dated (.completing locals) h
  | returned {state result h} : Dated (.returned state result) h

section Steps

variable {fmt cache} {locals : Locals} {h : UploadHistory} {time : Duration}

/-- A batch that has just been received expires as a whole. -/
theorem tracks_batch (urls : List Url) (expirationTs : Duration)
    (same : locals.state.partUrls = urls) (kept : locals.state.urlsExpirationTs = expirationTs)
    (queue : h.queue = UploadHistory.batch urls expirationTs) : Tracks locals h := by
  refine ⟨?_, ?_⟩
  · rw [queue, UploadHistory.batch, List.map_map, same]
    exact List.map_id _
  · rw [queue, kept]
    intro dated member
    obtain ⟨url, -, rfl⟩ := List.mem_map.mp member
    rfl

theorem dated_start (state : NarUploadState) :
    Dated (Upload.start state : Upload E) (.new state) :=
  .top (tracks_batch _ _ rfl rfl rfl)

/-- Nothing is left of a queue that cannot be used. -/
theorem Tracks.requestUrls {now : Duration} (tracks : Tracks locals h)
    (unusable : ¬ Usable locals.state.partUrls locals.state.urlsExpirationTs now) :
    Dated (.requestingUrls (locals.withPartUrls []) : Upload E)
      (.update fmt cache (.top locals) h (time, .clock now)) := by
  have cleared : (UploadHistory.update fmt cache (.top locals) h (time, .clock now)).queue = [] := by
    show (if now + fromSecs 10 ≥ locals.state.urlsExpirationTs then [] else h.queue).tail = []
    split
    · rfl
    · rename_i fresh
      have nothing : locals.state.partUrls = [] := by
        by_contra nonempty
        exact unusable ⟨nonempty, Nat.lt_of_not_le fresh⟩
      rw [← tracks.urls, List.map_eq_nil_iff] at nothing
      rw [nothing]
      rfl
  exact .requestingUrls ⟨by rw [cleared]; rfl, by simp [cleared]⟩ cleared

/-- The URL that is taken is the first one, with the time that is kept. -/
theorem Tracks.takeUrl {now : Duration} {partUrl : Url} {rest : List Url}
    (tracks : Tracks locals h) (urls : locals.state.partUrls = partUrl :: rest)
    (fresh : now + fromSecs 10 < locals.state.urlsExpirationTs) :
    Dated (.filling (locals.withPartUrls rest) partUrl 0 : Upload E)
      (.update fmt cache (.top locals) h (time, .clock now)) := by
  have queue : (if now + fromSecs 10 ≥ locals.state.urlsExpirationTs then [] else h.queue) =
      h.queue := if_neg (Nat.not_le_of_lt fresh)
  unfold UploadHistory.update
  dsimp only
  rw [queue]
  obtain ⟨⟨_, expirationTs⟩, others, split, rfl, rfl⟩ :=
    List.map_eq_cons_iff.mp (tracks.urls.trans urls)
  have dates := tracks.dates
  rw [split] at dates ⊢
  obtain ⟨date, dates⟩ := List.forall_mem_cons.mp dates
  exact .filling ⟨rfl, dates⟩ (congrArg (fun ts => some (DatedUrl.mk _ ts)) date) fresh

/-- Only the queue and the URL taken matter, and when the clock was looked at. -/
theorem Dated.at_time {upload : Upload E} (known : Dated upload h) (time : Duration) :
    Dated upload { h with now := time } := by
  cases known with
  | top tracks => exact .top ⟨tracks.urls, tracks.dates⟩
  | requestingUrls tracks empty => exact .requestingUrls ⟨tracks.urls, tracks.dates⟩ empty
  | filling tracks taken fresh => exact .filling ⟨tracks.urls, tracks.dates⟩ taken fresh
  | uploadingPart tracks => exact .uploadingPart ⟨tracks.urls, tracks.dates⟩
  | completing => exact .completing
  | returned => exact .returned

/-- **Every step keeps the one time that of the whole queue.** -/
theorem Dated.step {upload upload' : Upload E} {input : UploadInput E} {out : List UploadObs}
    (known : Dated upload h) (step : UploadStep fmt cache upload input upload' out) :
    Dated upload' (.update fmt cache upload h (time, input)) := by
  cases step with
  | requestUrls unusable =>
      cases known with
      | top tracks => exact tracks.requestUrls unusable
  | takeUrl urls fresh =>
      cases known with
      | top tracks => exact tracks.takeUrl urls fresh
  | urlsFailed answer => exact .returned
  | @receiveUrls locals _ parts answer =>
      cases known with
      | requestingUrls tracks empty =>
          -- the queue is empty, so that the new time is the one of all its URLs
          have noneLeft : locals.state.partUrls = [] := by rw [← tracks.urls, empty]; rfl
          simp only [UploadHistory.update, answer, empty, noneLeft, List.nil_append]
          exact .top (tracks_batch _ _ rfl rfl rfl)
  | pending => exact known.at_time time
  | readFailed => exact .returned
  | nothingLeft => exact .completing
  | lastPart nonempty =>
      cases known with
      | filling tracks taken fresh => exact .uploadingPart ⟨tracks.urls, tracks.dates⟩
  | readMore nonempty room =>
      cases known with
      | filling tracks taken fresh => exact .filling ⟨tracks.urls, tracks.dates⟩ taken fresh
  | fullPart nonempty full =>
      cases known with
      | filling tracks taken fresh => exact .uploadingPart ⟨tracks.urls, tracks.dates⟩
  | partFailed answer => exact .returned
  | allParts answer short => exact .completing
  | tooManyParts answer full largest => exact .returned
  | nextPart answer full next =>
      cases known with
      | uploadingPart tracks => exact .top ⟨tracks.urls, tracks.dates⟩
  | completionFailed answer => exact .returned
  | completed answer => exact .returned

/-! ## Parts that are uploaded -/

theorem UploadObs.putTo_eq_some {o : UploadObs} {url : Url} :
    o.putTo = some url ↔ ∃ partBytes, o = .called (.uploadPart url partBytes) := by
  constructor
  · intro put
    unfold UploadObs.putTo at put
    split at put
    · rename_i target partBytes
      obtain rfl := Option.some.inj put
      exact ⟨partBytes, rfl⟩
    · cases put
  · rintro ⟨partBytes, rfl⟩
    rfl

theorem mem_parts_iff {url : Url} {partBytes : List UInt8} {out : List UploadObs} :
    (url, partBytes) ∈ (uploadLog out).parts ↔ .called (.uploadPart url partBytes) ∈ out := by
  constructor
  · intro member
    obtain ⟨o, isOut, isPart⟩ := List.mem_filterMap.mp member
    split at isPart
    · cases isPart
      exact isOut
    · cases isPart
  · exact fun member => List.mem_filterMap.mpr ⟨_, member, rfl⟩

/-- Something that is delivered completes the part if it fills the buffer. -/
theorem completesPart_chunk {numRead : ℕ} {chunk : List UInt8} (nonempty : chunk ≠ []) :
    CompletesPart (E := E) locals numRead (.read (.ready (.ok chunk))) ↔
      numRead + chunk.length = locals.partBytesBuf.length := by
  cases chunk with
  | nil => exact absurd rfl nonempty
  | cons b data => rfl

/-- A poll completes a part exactly if the part is then uploaded. -/
theorem uploads_iff {partUrl : Url} {numRead : ℕ} {input : UploadInput E} {upload : Upload E}
    {out : List UploadObs}
    (step : UploadStep fmt cache (.filling locals partUrl numRead) input upload out) :
    (∃ partBytes, .called (.uploadPart partUrl partBytes) ∈ out) ↔
      CompletesPart locals numRead input := by
  cases step with
  | pending => simp [CompletesPart]
  | readFailed => simp [CompletesPart]
  | nothingLeft => simp [CompletesPart, Upload.completeCall]
  | lastPart nonempty => simp [CompletesPart, nonempty]
  | readMore nonempty room =>
      rw [completesPart_chunk nonempty]
      simp [Nat.ne_of_lt room]
  | fullPart nonempty full =>
      rw [completesPart_chunk nonempty]
      simp [full]

/-- A part is uploaded by a poll that completes it, to the URL taken for it. -/
theorem Dated.uploads {upload upload' : Upload E} {input : UploadInput E}
    {out : List UploadObs} {url : Url} {partBytes : List UInt8} (known : Dated upload h)
    (hstep : Upload.step fmt cache upload input = some (upload', out))
    (member : .called (.uploadPart url partBytes) ∈ out) :
    ∃ locals numRead, upload = .filling locals url numRead ∧
      CompletesPart locals numRead input ∧
      (UploadHistory.update fmt cache upload h (time, input)).taken =
        some ⟨url, locals.state.urlsExpirationTs⟩ ∧
      h.looked + fromSecs 10 < locals.state.urlsExpirationTs := by
  rcases (Upload.step_moves hstep).parts with idle | ⟨locals, partUrl, numRead, bytes, rfl, one⟩
  · rw [← mem_parts_iff, idle] at member
    cases member
  · have uploaded := member
    rw [← mem_parts_iff, one, List.mem_singleton] at member
    cases member
    cases known with
    | filling tracks taken fresh =>
        have step := Upload.step_spec hstep
        have completes := (uploads_iff step).mp ⟨partBytes, uploaded⟩
        cases input with
        | read polled => exact ⟨locals, numRead, rfl, completes, taken, fresh⟩
        | _ => cases hstep

end Steps

/-! ## Runs -/

section Runs

variable {fmt cache} {state : NarUploadState} {s t : Upload E × UploadHistory}
  {is : List (Duration × UploadInput E)} {trace : List (UploadHistory × UploadObs)}

/-- The clock only refuses steps of the upload, it adds none. -/
theorem step_timedMachine {upload upload' : Upload E} {input : Duration × UploadInput E}
    {out : List UploadObs}
    (hstep : (timedMachine fmt cache).step upload input = some (upload', out)) :
    Upload.step fmt cache upload input.2 = some (upload', out) := by
  unfold timedMachine at hstep
  dsimp only at hstep
  split at hstep
  · exact hstep
  · cases hstep

/-- A step of the machine with its history is one of the upload. -/
theorem step_datedMachine {input : Duration × UploadInput E}
    {out : List (UploadHistory × UploadObs)}
    (hstep : (datedMachine fmt cache).step s input = some (t, out)) :
    ∃ out₀, Upload.step fmt cache s.1 input.2 = some (t.1, out₀) ∧
      t.2 = UploadHistory.update fmt cache s.1 s.2 input ∧ out = out₀.map (Prod.mk t.2) := by
  obtain ⟨out₀, hstep, history, stamped⟩ := (Machine.step_withHistory_eq_some _ _).mp hstep
  exact ⟨out₀, step_timedMachine hstep, history, stamped⟩

theorem run_timedMachine {upload upload' : Upload E} {out : List UploadObs}
    (hrun : (timedMachine fmt cache).run upload is = some (upload', out)) :
    (uploadMachine fmt cache).run upload (is.map Prod.snd) = some (upload', out) := by
  induction is generalizing upload out with
  | nil =>
      cases hrun
      rfl
  | cons input rest ih =>
      obtain ⟨next, first, tail, hstep, hrest, rfl⟩ := (Machine.run_cons_eq_some _).mp hrun
      exact (Machine.run_cons_eq_some _).mpr
        ⟨next, first, tail, step_timedMachine hstep, ih hrest, rfl⟩

/-- A timed run is a run of `upload_nar`. -/
theorem run_uploadMachine (hrun : (datedMachine fmt cache).run s is = some (t, trace)) :
    (uploadMachine fmt cache).run s.1 (is.map Prod.snd) = some (t.1, trace.map Prod.snd) := by
  have timed := (timedMachine fmt cache).run_withHistory (UploadHistory.update fmt cache) s.1 s.2 is
  -- `datedMachine` is this machine with its history
  change ((datedMachine fmt cache).run s is).map _ = _ at timed
  rw [hrun] at timed
  exact run_timedMachine timed.symm

/-- The history knows the time of the last input. -/
theorem update_now (upload : Upload E) (h : UploadHistory) (input : Duration × UploadInput E) :
    (UploadHistory.update fmt cache upload h input).now = input.1 := by
  unfold UploadHistory.update
  dsimp only
  split
  · rfl
  · split <;> rfl
  · rfl

/-- What is known of the history is kept. -/
theorem dated_preserved (s : Upload E × UploadHistory) (_ : List (UploadHistory × UploadObs))
    (input : Duration × UploadInput E) (s' : Upload E × UploadHistory)
    (out : List (UploadHistory × UploadObs)) (known : Dated s.1 s.2)
    (hstep : (datedMachine fmt cache).step s input = some (s', out)) : Dated s'.1 s'.2 := by
  obtain ⟨out₀, taken, history, -⟩ := step_datedMachine hstep
  rw [history]
  exact known.step (Upload.step_spec taken)

/-- The time taken is less than the time left. -/
theorem taken_lt_left_iff {looked time expirationTs margin : ℕ}
    (fresh : looked + margin < expirationTs) :
    time - looked < expirationTs - looked ↔ time < expirationTs := by
  omega

/-- If parts that are read are in time by `Reading`, no part is put to an expired
URL. -/
theorem unexpired_of_meets
    {Reading : Upload E × UploadHistory → Duration × UploadInput E → Prop}
    (inTime : ∀ (h : UploadHistory) (input : Duration × UploadInput E) locals partUrl numRead,
      Reading (.filling locals partUrl numRead, h) input → CompletesPart locals numRead input.2 →
        h.looked + fromSecs 10 < locals.state.urlsExpirationTs →
          input.1 < locals.state.urlsExpirationTs)
    (known : Dated s.1 s.2) (meets : (datedMachine fmt cache).Meets Reading s is)
    (hrun : (datedMachine fmt cache).run s is = some (t, trace)) : ∀ e ∈ trace, Unexpired e := by
  have guarded : Guarded (fun _ e => Unexpired e) trace := by
    refine (datedMachine fmt cache).run_guarded (I := fun s _ => Dated s.1 s.2)
      (fun s pre input s' out known _ => dated_preserved s pre input s' out known) ?_ meets known hrun
    rintro ⟨upload, h⟩ _ input ⟨upload', h'⟩ out known reading hstep pre e post split url isUpload
    obtain ⟨out₀, took, rfl, rfl⟩ := step_datedMachine hstep
    obtain ⟨o, member, rfl⟩ := List.mem_map.mp (split ▸ List.mem_append_right pre List.mem_cons_self)
    obtain ⟨partBytes, rfl⟩ := UploadObs.putTo_eq_some.mp isUpload
    obtain ⟨locals, numRead, rfl, completes, taken, fresh⟩ := known.uploads took member
    refine ⟨_, taken, rfl, ?_⟩
    rw [update_now]
    exact inTime h input locals url numRead reading completes fresh
  intro e member
  obtain ⟨pre, post, split⟩ := List.append_of_mem member
  exact guarded pre e post split

variable (fmt cache) in
/-- **No part is put to an expired URL exactly if parts are read in time.**

The clock is looked at when a URL is taken and not when the part is put, and between the two
lies the read of a whole part.  So the condition is about the read that completes a part: it
has to come before the expiration of the URL that has been taken, which is that of the batch
it came in (`Dated`). -/
theorem uploads_unexpired_iff
    (hrun : (datedMachine fmt cache).run (Upload.start state, .new state) is = some (t, trace)) :
    (∀ e ∈ trace, Unexpired e) ↔
      (datedMachine fmt cache).Meets InTime (Upload.start state, .new state) is := by
  constructor
  · intro unexpired
    have guarded : Guarded (fun _ e => Unexpired e) ([] ++ trace) := by
      intro pre e post split
      apply unexpired e
      rw [← List.nil_append trace, split]
      exact List.mem_append_right pre List.mem_cons_self
    refine (datedMachine fmt cache).meets_of_guarded (I := fun s _ => Dated s.1 s.2)
      dated_preserved ?_ (dated_start state) hrun guarded
    rintro ⟨upload, h⟩ before ⟨time, input⟩ ⟨upload', h'⟩ out known hstep guarded
    rintro locals partUrl numRead rfl completes
    obtain ⟨out₀, took, rfl, rfl⟩ := step_datedMachine hstep
    cases input with
    | read polled =>
        obtain ⟨partBytes, uploaded⟩ := (uploads_iff (Upload.step_spec took)).mpr completes
        obtain ⟨pre, post, split⟩ :=
          List.append_of_mem (List.mem_map_of_mem (f := Prod.mk _) uploaded)
        obtain ⟨dated, isTaken, -, early⟩ := guarded.allowed split partUrl rfl
        cases known with
        | filling tracks taken fresh =>
            obtain rfl := Option.some.inj (taken.symm.trans isTaken)
            exact (taken_lt_left_iff fresh).mpr early
    -- only a read completes a part
    | _ => exact completes.elim
  · intro meets
    refine unexpired_of_meets ?_ (dated_start state) meets hrun
    intro h input locals partUrl numRead inTime completes fresh
    exact (taken_lt_left_iff fresh).mp (inTime locals partUrl numRead rfl completes)

/-- A part that is read takes no longer than the safety buffer. -/
def Prompt (s : Upload E × UploadHistory) (input : Duration × UploadInput E) : Prop :=
  ∀ locals partUrl numRead, s.1 = .filling locals partUrl numRead →
    CompletesPart locals numRead input.2 → input.1 ≤ s.2.looked + fromSecs 10

/-- The safety buffer is enough when parts are read within it. -/
theorem uploads_unexpired_of_prompt
    (hrun : (datedMachine fmt cache).run (Upload.start state, .new state) is = some (t, trace))
    (prompt : (datedMachine fmt cache).Meets Prompt (Upload.start state, .new state) is) :
    ∀ e ∈ trace, Unexpired e := by
  refine unexpired_of_meets ?_ (dated_start state) prompt hrun
  intro h input locals partUrl numRead reading completes fresh
  exact Nat.lt_of_le_of_lt (reading locals partUrl numRead rfl completes) fresh

end Runs

/-! ## Fast and slow readers -/

/-- The upload of three bytes, with its times; the second URL is requested. -/
def promptRun : List (Duration × UploadInput Unit) :=
  [(0, .clock 0), (fromSecs 3, .read (.ready (.ok [1]))), (fromSecs 4, .read .pending),
    (fromSecs 9, .read (.ready (.ok [2]))), (fromSecs 20, .part (answered "\"a\"") true),
    (fromSecs 20, .clock (fromSecs 20)), (fromSecs 21, .partUrls (answered "")),
    (fromSecs 22, .clock (fromSecs 22)), (fromSecs 85, .read (.ready (.ok [3]))),
    (fromSecs 89, .read (.ready (.ok [])))]

/-- Both parts are read while their URLs are valid. -/
theorem uploads_unexpired_three_bytes :
    (datedMachine secondPartFormats exampleCache).Meets InTime
      (Upload.start twoByteParts, .new twoByteParts) promptRun := by
  have checked : ((datedMachine secondPartFormats exampleCache).run
      (Upload.start twoByteParts, .new twoByteParts) promptRun).map
        (fun p => decide (∀ e ∈ p.2, Unexpired e)) = some true := by
    decide +kernel
  obtain ⟨⟨t, trace⟩, hrun, unexpired⟩ := Option.map_eq_some_iff.mp checked
  exact (uploads_unexpired_iff secondPartFormats exampleCache hrun).mp (of_decide_eq_true unexpired)

/-- A reader that takes a hundred seconds for the first part. -/
def slowRun : List (Duration × UploadInput Unit) :=
  [(0, .clock 0), (fromSecs 100, .read (.ready (.ok [1, 2])))]

/-- What has happened when the part has been read: its URL has expired. -/
def slowHistory : UploadHistory where
  now := fromSecs 100
  looked := 0
  queue := []
  taken := some ⟨partUrlOf 1, fromSecs 60⟩

/-- The clock does not go back, but the part is put to an expired URL. -/
theorem slow_part_expires :
    (slowRun.map Prod.fst).Pairwise (· ≤ ·) ∧
      ∃ t, (datedMachine secondPartFormats exampleCache).run
          (Upload.start twoByteParts, .new twoByteParts) slowRun =
            some (t, [(slowHistory, .read [1, 2]),
              (slowHistory, .called (.uploadPart (partUrlOf 1) [1, 2]))]) ∧
        ¬ Unexpired (slowHistory, .called (.uploadPart (partUrlOf 1) [1, 2])) := by
  refine ⟨by decide, (.uploadingPart
    { state := { twoByteParts with partUrls := [] }, partNumber := ⟨1, by decide, by decide⟩,
      etags := [], partBytesBuf := [1, 2] } (partUrlOf 1) [1, 2], slowHistory), ?_, ?_⟩
  · decide +kernel
  · intro unexpired
    obtain ⟨dated, taken, -, early⟩ := unexpired _ rfl
    obtain rfl := Option.some.inj taken
    exact absurd early (by decide)

end Sub60

end CacheAction
