import CacheAction.Sub60.Termination

/-!
# The largest NAR

Parts are numbered from 1 to 65535, and all but the last one are full, so a NAR
of `L` bytes in parts of `p` bytes fits exactly if `L ≤ 65535 * p`.  Here every
request succeeds, and what matters is how many bytes there are.

`Counted` relates the part number to the bytes that have been read and to those
that the reader still holds.  Once the upload has returned it says what the
result is: `Ok` below the limit, and `TooManyNarParts` from the limit on, since
the part number is advanced after a full part without knowing whether anything
follows it.  A NAR of exactly `65535 * p` bytes is therefore uploaded as a whole
and then refused (`accepts_fitting_iff`).

### The count

The equation of `Progress` holds in every phase in which a part is prepared: the parts so far,
all of them full, with the bytes of the current one and those that the reader still has, make
up the NAR.  The part number is one ahead of the parts, so it is the size of the NAR and one
more part that stands on the other side; in this form nothing is subtracted.

No bound on the number of steps occurs.  Whether the upload returns is a question of its own
(`CacheAction.Sub60.Termination`); here the result is read off the state in which it has
returned, and the two are put together in the end.
-/

namespace CacheAction

namespace Sub60

variable {E : Type} (fmt : Formats E) (cache : Sub60Cache)

/-! ## The numbers requested -/

/-- The numbers requested are consecutive: as many as there are up to `2 ^ 16`. -/
theorem map_val_go (n : ℕ) (number : NonZero 16) :
    (newPartNumbers.go n (some number)).map NonZero.val =
      List.range' number.val (min n (2 ^ 16 - number.val)) := by
  induction n generalizing number with
  | zero => simp [newPartNumbers.go]
  | succ n ih =>
      have := number.lt
      have count : min (n + 1) (2 ^ 16 - number.val) = min n (2 ^ 16 - (number.val + 1)) + 1 := by
        omega
      rw [newPartNumbers.go, List.map_cons, count, List.range'_succ]
      congr 1
      cases next : number.checkedAdd 1 with
      | none =>
          -- the largest number has no successor, and nothing is left to request
          have : ¬ number.val + 1 < 2 ^ 16 := by
            intro fits
            rw [NonZero.checkedAdd, dif_pos fits] at next
            cases next
          have none_left : newPartNumbers.go n none = [] := by cases n <;> rfl
          rw [none_left, show min n (2 ^ 16 - (number.val + 1)) = 0 by omega]
          rfl
      | some following =>
          rw [ih following, NonZero.checkedAdd_eq_some.mp next]

/-- Four numbers are requested, or those that are left. -/
theorem map_val_newPartNumbers (number : NonZero 16) :
    (newPartNumbers number).map NonZero.val =
      List.range' number.val (min 4 (2 ^ 16 - number.val)) :=
  map_val_go 4 number

/-! ## Counting bytes -/

/-- The requests of an upload succeed, and the URLs requested are there: one for
each number, none of them expired.

It is said of the requests that the session makes, at the times at which it makes them, and not
of the environment as a whole: what a server would answer to other requests does not matter.
A batch may still expire later; `AnswersSettle` is about that. -/
structure Succeeds (env : Env E) (s : Session E) : Prop where
  partUrls : ∀ t locals reader, s.after fmt cache env t = ⟨.requestingUrls locals, reader⟩ →
    ∃ parts, requestPartUrls fmt (cache.request fmt (Upload.partUrlsCall locals))
        (env.partUrls t) = .ok parts ∧
      parts.urls.length = (newPartNumbers locals.partNumber).length ∧
      env.clock (t + 1) < parts.expirationTs
  part : ∀ t locals partUrl partBytes reader,
    s.after fmt cache env t = ⟨.uploadingPart locals partUrl partBytes, reader⟩ →
      ∃ etag, uploadPart fmt (cache.request fmt (.uploadPart partUrl partBytes)) (env.part t).1 =
        .ok etag
  complete : ∀ t locals reader, s.after fmt cache env t = ⟨.completing locals, reader⟩ →
    completeNarUpload fmt (cache.request fmt (Upload.completeCall locals)) (env.complete t) =
      .ok ()

/-- All parts before the current one were full, and `numRead` bytes of it have
been read; `total` is the size of the NAR.  Part `n` is prepared after `n - 1` full ones, whence
the additional `partSize` on the right. -/
structure Progress (partSize total : ℕ) (locals : Locals) (reader : Source UInt8 E)
    (numRead : ℕ) : Prop where
  size : locals.state.partSize.val = partSize
  bytes : locals.partNumber.val * partSize + numRead + reader.remaining.length = total + partSize
  ending : reader.ending = .eof

/-- The part number against the bytes read and left, in each phase.  When the upload is being
completed and when it has returned, only the comparison with the limit is left.  There is no
constructor for other errors: under `Succeeds` there are none. -/
inductive Counted (partSize total : ℕ) : Session E → Prop where
  | top {locals reader} (known : Progress partSize total locals reader 0)
      (buffer : locals.partBytesBuf.length = partSize) :
      Counted partSize total ⟨.top locals, reader⟩
  | requestingUrls {locals reader} (known : Progress partSize total locals reader 0)
      (buffer : locals.partBytesBuf.length = partSize) :
      Counted partSize total ⟨.requestingUrls locals, reader⟩
  | filling {locals partUrl numRead reader} (known : Progress partSize total locals reader numRead)
      (buffer : locals.partBytesBuf.length = partSize) (room : numRead < partSize) :
      Counted partSize total ⟨.filling locals partUrl numRead, reader⟩
  | uploadingPart {locals partUrl partBytes reader}
      (known : Progress partSize total locals reader partBytes.length)
      (fits : partBytes.length ≤ partSize)
      (last : partBytes.length < partSize → reader.remaining = []) :
      Counted partSize total ⟨.uploadingPart locals partUrl partBytes, reader⟩
  | completing {locals reader} (below : total < 65535 * partSize) :
      Counted partSize total ⟨.completing locals, reader⟩
  | returned {state reader} (below : total < 65535 * partSize) :
      Counted partSize total ⟨.returned state (.ok ()), reader⟩
  | tooManyNarParts {state reader} (above : 65535 * partSize ≤ total) :
      Counted partSize total ⟨.returned state (.error .tooManyNarParts), reader⟩

section Steps

variable {fmt cache} {env : Env E} {s : Session E} {n t partSize total : ℕ} {locals : Locals}
  {reader : Source UInt8 E}

/-- No part has been read, and the whole NAR is ahead. -/
theorem counted_start (state : NarUploadState) (ending : reader.ending = .eof) :
    Counted state.partSize.val reader.remaining.length
      (Session.mk (Upload.start state : Upload E) reader) :=
  .top
    { size := rfl
      bytes := by
        show 1 * _ + 0 + _ = _
        omega
      ending }
    List.length_replicate

/-- The last part leaves the NAR below the limit. -/
theorem Progress.below {numRead : ℕ} (known : Progress partSize total locals reader numRead)
    (short : numRead < partSize) (exhausted : reader.remaining = []) :
    total < 65535 * partSize := by
  have number : locals.partNumber.val ≤ 65535 := Nat.le_of_lt_succ locals.partNumber.lt
  have parts : locals.partNumber.val * partSize ≤ 65535 * partSize :=
    Nat.mul_le_mul_right partSize number
  have bytes := known.bytes
  rw [exhausted, List.length_nil] at bytes
  omega

/-- What is delivered is counted as read. -/
theorem Progress.read {numRead : ℕ} {chunk : List UInt8} {reader' : Source UInt8 E} {space : ℕ}
    (known : Progress partSize total locals reader numRead)
    (polled : reader.pollRead space = (.ready (.ok chunk), reader')) :
    Progress partSize total (locals.receive numRead chunk) reader' (numRead + chunk.length) := by
  obtain ⟨split, ending, -⟩ := Source.of_pollRead_ok polled
  refine ⟨known.size, ?_, ending.trans known.ending⟩
  have bytes := known.bytes
  rw [split, List.length_append] at bytes
  show locals.partNumber.val * partSize + _ + _ = _
  omega

/-- After a full part the number of parts grows, and the bytes read start again. -/
theorem Progress.nextPart {numRead : ℕ} (known : Progress partSize total locals reader numRead)
    (full : numRead = partSize) {locals' : Locals} (same : locals'.state = locals.state)
    (next : locals'.partNumber.val = locals.partNumber.val + 1) :
    Progress partSize total locals' reader 0 := by
  refine ⟨same ▸ known.size, ?_, known.ending⟩
  have bytes := known.bytes
  rw [next, Nat.succ_mul]
  omega

/-- When the number cannot be advanced, the NAR is at the limit or above it. -/
theorem Progress.above (known : Progress partSize total locals reader partSize)
    (largest : locals.partNumber.checkedAdd 1 = none) : 65535 * partSize ≤ total := by
  have number : locals.partNumber.val = 65535 := by
    have := locals.partNumber.lt
    by_contra smaller
    rw [NonZero.checkedAdd, dif_pos (by omega)] at largest
    cases largest
  have bytes := known.bytes
  rw [number] at bytes
  omega

/-- **Every step keeps count.**  The requests that can fail do not, under `Succeeds`, and the reader
does not fail either, since it comes to the end of the NAR.  Two cases compare with the
limit: the last part, which is short, and the part whose number has no successor. -/
theorem Counted.step {upload upload' : Upload E} {input : UploadInput E} {out : List UploadObs}
    {reader' : Source UInt8 E} (succeeds : Succeeds fmt cache env s)
    (current : s.after fmt cache env t = ⟨upload, reader⟩)
    (known : Counted partSize total ⟨upload, reader⟩)
    (hinput : Session.input env t ⟨upload, reader⟩ = some (input, reader'))
    (step : UploadStep fmt cache upload input upload' out) :
    Counted partSize total ⟨upload', reader'⟩ := by
  cases step with
  | requestUrls unusable =>
      cases hinput
      cases known with
      | top known buffer =>
          exact .requestingUrls ⟨known.size, known.bytes, known.ending⟩ buffer
  | @takeUrl locals _ _ rest urls fresh =>
      cases hinput
      cases known with
      | top known buffer =>
          have positive : 0 < partSize := known.size ▸ locals.state.partSize.pos
          exact .filling ⟨known.size, known.bytes, known.ending⟩ buffer positive
  | urlsFailed answer =>
      cases hinput
      obtain ⟨parts, ok, -⟩ := succeeds.partUrls t _ _ current
      cases answer.symm.trans ok
  | receiveUrls answer =>
      cases hinput
      cases known with
      | requestingUrls known buffer => exact .top ⟨known.size, known.bytes, known.ending⟩ buffer
  | pending =>
      obtain ⟨same, ending⟩ := Source.of_pollRead_pending (Session.polled_of_input hinput)
      cases known with
      | filling known buffer room =>
          exact .filling ⟨known.size, same ▸ known.bytes, ending.trans known.ending⟩ buffer room
  | readFailed =>
      cases known with
      | filling known buffer room =>
          have failing := Source.of_pollRead_error (Session.polled_of_input hinput)
          cases known.ending.symm.trans failing
  | nothingLeft =>
      cases known with
      | filling known buffer room =>
          have polled := Session.polled_of_input hinput
          rw [buffer] at polled
          have exhausted := (Source.of_pollRead_ok polled).2.2 rfl room
          exact .completing ((known.read polled).below room exhausted)
  | @lastPart locals partUrl numRead nonempty =>
      cases known with
      | filling known buffer room =>
          have polled := Session.polled_of_input hinput
          rw [buffer] at polled
          have exhausted := (Source.of_pollRead_ok polled).2.2 rfl (Nat.sub_pos_of_lt room)
          have length : (locals.partBytesBuf.take numRead).length = numRead :=
            List.length_take_of_le (buffer ▸ Nat.le_of_lt room)
          -- nothing was read although there was room, so this is all of the NAR
          have read := known.read polled
          refine .uploadingPart ⟨known.size, ?_, read.ending⟩ ?_ fun _ => exhausted
          · rw [length]
            exact read.bytes
          · rw [length]
            exact Nat.le_of_lt room
  | readMore nonempty more =>
      cases known with
      | filling known buffer room =>
          have length := (length_overwrite (Nat.le_of_lt more)).trans buffer
          exact .filling (known.read (Session.polled_of_input hinput)) length (buffer ▸ more)
  | fullPart nonempty full =>
      cases known with
      | filling known buffer room =>
          -- the buffer is full: whether the NAR ends here is not known yet
          have length := length_overwrite (Nat.le_of_eq full)
          have read := known.read (Session.polled_of_input hinput)
          rw [full, ← length] at read
          rw [buffer] at length
          exact .uploadingPart read (Nat.le_of_eq length) fun short =>
            absurd length (Nat.ne_of_lt short)
  | partFailed answer =>
      cases hinput
      obtain ⟨etag, ok⟩ := succeeds.part t _ _ _ _ current
      cases answer.symm.trans ok
  | allParts answer short =>
      cases hinput
      cases known with
      | uploadingPart known fits last =>
          rw [known.size] at short
          exact .completing (known.below short (last short))
  | tooManyParts answer full largest =>
      cases hinput
      cases known with
      | uploadingPart known fits last =>
          rw [Nat.le_antisymm fits (known.size ▸ full)] at known
          exact .tooManyNarParts (known.above largest)
  | @nextPart locals _ _ _ unique _ _ answer full next =>
      cases hinput
      cases known with
      | uploadingPart known fits last =>
          have complete := Nat.le_antisymm fits (known.size ▸ full)
          refine .top (known.nextPart complete rfl next) ?_
          dsimp only
          split
          · exact complete
          · exact List.length_replicate.trans known.size
  | completionFailed answer =>
      cases hinput
      cases answer.symm.trans (succeeds.complete t _ _ current)
  | completed answer =>
      cases hinput
      cases known with
      | completing below => exact .returned below

/-- The count holds at every step of an upload. -/
theorem counted_after {state : NarUploadState} (ending : reader.ending = .eof)
    (succeeds : Succeeds fmt cache env ⟨Upload.start state, reader⟩) (t : ℕ) :
    Counted state.partSize.val reader.remaining.length
      (Session.after fmt cache env ⟨Upload.start state, reader⟩ t) := by
  induction t with
  | zero => exact counted_start state ending
  | succ t ih =>
      rw [Session.after]
      rcases next_spec (Session.after fmt cache env ⟨Upload.start state, reader⟩ t) with
        unchanged | ⟨input, upload', reader', out, hinput, step, next⟩
      · rw [unchanged]
        exact ih
      · rw [next]
        exact ih.step succeeds rfl hinput step

/-- **The size of the NAR decides the result.**  Nothing else can be returned when all requests
succeed. -/
theorem result_of_returned {state state' : NarUploadState}
    {result : Except (CacheRequestError E) Unit} (ending : reader.ending = .eof)
    (succeeds : Succeeds fmt cache env ⟨Upload.start state, reader⟩)
    (returned : (Session.after fmt cache env ⟨Upload.start state, reader⟩ t).upload =
      .returned state' result) :
    (result = .ok () ∧ reader.remaining.length < 65535 * state.partSize.val) ∨
      (result = .error .tooManyNarParts ∧
        65535 * state.partSize.val ≤ reader.remaining.length) := by
  have known := counted_after ending succeeds t
  rcases after : Session.after fmt cache env ⟨Upload.start state, reader⟩ t with
    ⟨upload, reader'⟩
  rw [after] at returned known
  obtain rfl : upload = .returned state' result := returned
  cases known with
  | returned below => exact Or.inl ⟨rfl, below⟩
  | tooManyNarParts above => exact Or.inr ⟨rfl, above⟩

end Steps

/-! ## Which NARs are accepted -/

/-- What is expected of an upload: a NAR that fits is accepted, `TooManyNarParts`
means that it does not fit, and the part numbers stay in their range. -/
structure AcceptsFitting (env : Env E) (state : NarUploadState) (reader : Source UInt8 E) :
    Prop where
  accepted : 0 < reader.remaining.length →
    reader.remaining.length ≤ 65535 * state.partSize.val →
      ∃ n state', (Session.after fmt cache env ⟨Upload.start state, reader⟩ n).upload =
        .returned state' (.ok ())
  refused : ∀ n state', (Session.after fmt cache env ⟨Upload.start state, reader⟩ n).upload =
      .returned state' (.error .tooManyNarParts) →
    65535 * state.partSize.val < reader.remaining.length
  /-- Consecutive numbers are requested, from the number of the next part on. -/
  requested : ∀ n locals reader',
    Session.after fmt cache env ⟨Upload.start state, reader⟩ n =
        ⟨.requestingUrls locals, reader'⟩ →
      (newPartNumbers locals.partNumber).map NonZero.val =
          List.range' locals.partNumber.val (min 4 (2 ^ 16 - locals.partNumber.val)) ∧
        ∀ number ∈ newPartNumbers locals.partNumber, 1 ≤ number.val ∧ number.val ≤ 65535
  /-- After a part the number is one more, without wrapping. -/
  advanced : ∀ n locals partUrl partBytes reader' locals' reader'',
    Session.after fmt cache env ⟨Upload.start state, reader⟩ n =
        ⟨.uploadingPart locals partUrl partBytes, reader'⟩ →
      Session.after fmt cache env ⟨Upload.start state, reader⟩ (n + 1) =
        ⟨.top locals', reader''⟩ →
      locals'.partNumber.val = locals.partNumber.val + 1

section Numbers

variable {fmt cache} {env : Env E} {s : Session E} {n : ℕ} {locals locals' : Locals}
  {reader reader' : Source UInt8 E}

/-- The number is advanced by one. -/
theorem number_advanced {partUrl : Url} {partBytes : List UInt8}
    (before : s.after fmt cache env n = ⟨.uploadingPart locals partUrl partBytes, reader⟩)
    (after : s.after fmt cache env (n + 1) = ⟨.top locals', reader'⟩) :
    locals'.partNumber.val = locals.partNumber.val + 1 := by
  rw [Session.after, before, next_uploadingPart] at after
  have turn : UploadStep fmt cache (.uploadingPart locals partUrl partBytes)
      (.part (env.part n).1 (env.part n).2) _ _ :=
    Upload.receiveEtag_spec locals partUrl partBytes (env.part n).1 (env.part n).2
  rw [(Session.mk.inj after).1] at turn
  generalize (Upload.receiveEtag fmt cache locals partUrl partBytes _ _).2 = out at turn
  cases turn with
  | nextPart answer full next => exact next

end Numbers

/-- **When a NAR that fits is accepted**: if it is not as large as can be, and
whenever URLs are requested, one of the answers to come outlasts the safety
buffer.

After every full part the number of the next one is computed, also when there will be none,
and 65535 has no successor that fits `u16`.  So a NAR of exactly 65535 full parts is refused
when all of its parts have been put.  The second half of the condition is the one under
which the upload returns at all (`top_returns`). -/
theorem accepts_fitting_iff (env : Env E) (state : NarUploadState) {reader : Source UInt8 E}
    (fair : reader.Fair) (ending : reader.ending = .eof)
    (succeeds : Succeeds fmt cache env ⟨Upload.start state, reader⟩) :
    AcceptsFitting fmt cache env state reader ↔
      (0 < reader.remaining.length → reader.remaining.length ≤ 65535 * state.partSize.val →
        reader.remaining.length < 65535 * state.partSize.val ∧
          AnswersSettle fmt cache env ⟨Upload.start state, reader⟩) := by
  constructor
  · intro accepts nonempty fits
    obtain ⟨n, state', returned⟩ := accepts.accepted nonempty fits
    refine ⟨?_, fun t locals reader' h => ?_⟩
    · rcases result_of_returned ending succeeds returned with ⟨-, below⟩ | ⟨impossible, -⟩
      · exact below
      · cases impossible
    · -- without an answer that settles, the same URLs are requested forever
      by_contra never
      have empty := empty_of_requesting fmt cache env ⟨_, rfl⟩ (congrArg Session.upload h)
      exact never_returns fmt cache h empty (not_exists.mp never) n ⟨_, _, returned⟩
  · intro condition
    have positive := state.partSize.pos
    exact
      { accepted := by
          intro nonempty fits
          obtain ⟨below, settle⟩ := condition nonempty fits
          obtain ⟨n, state', result, returned⟩ := top_returns (t := 0) settle rfl fair
          rcases result_of_returned ending succeeds returned with ⟨rfl, -⟩ | ⟨-, above⟩
          · exact ⟨n, state', returned⟩
          · omega
        refused := by
          intro n state' returned
          rcases result_of_returned ending succeeds returned with ⟨impossible, -⟩ | ⟨-, above⟩
          · cases impossible
          · by_contra fits
            have := (condition (by omega) (by omega)).1
            omega
        requested := fun n locals reader' h =>
          ⟨map_val_newPartNumbers locals.partNumber, fun number _ =>
            ⟨number.pos, Nat.le_of_lt_succ number.lt⟩⟩
        advanced := fun n locals partUrl partBytes reader' locals' reader'' =>
          number_advanced }

/-! ## A server that hands out all URLs at once -/

/-- There is a URL for every part number left. -/
inductive Stocked (expirationTs : Duration) : Upload E → Prop where
  | top {locals} (expiration : locals.state.urlsExpirationTs = expirationTs)
      (enough : 2 ^ 16 ≤ locals.state.partUrls.length + locals.partNumber.val) :
      Stocked expirationTs (.top locals)
  | filling {locals partUrl numRead} (expiration : locals.state.urlsExpirationTs = expirationTs)
      (enough : 2 ^ 16 ≤ locals.state.partUrls.length + locals.partNumber.val + 1) :
      Stocked expirationTs (.filling locals partUrl numRead)
  | uploadingPart {locals partUrl partBytes}
      (expiration : locals.state.urlsExpirationTs = expirationTs)
      (enough : 2 ^ 16 ≤ locals.state.partUrls.length + locals.partNumber.val + 1) :
      Stocked expirationTs (.uploadingPart locals partUrl partBytes)
  | completing {locals} : Stocked expirationTs (.completing locals)
  | returned {state result} : Stocked expirationTs (.returned state result)

section Stocked

variable {fmt cache} {expirationTs : Duration} {locals : Locals}

theorem stocked_start {state : NarUploadState} (enough : 65535 ≤ state.partUrls.length) :
    Stocked state.urlsExpirationTs (Upload.start state : Upload E) := by
  refine .top rfl ?_
  show 2 ^ 16 ≤ state.partUrls.length + 1
  omega

/-- Every step before the expiration takes one URL for each part number. -/
theorem Stocked.step {upload upload' : Upload E} {input : UploadInput E} {out : List UploadObs}
    (stocked : Stocked expirationTs upload)
    (early : ∀ now, input = .clock now → now + fromSecs 10 < expirationTs)
    (step : UploadStep fmt cache upload input upload' out) : Stocked expirationTs upload' := by
  cases step with
  | @requestUrls locals now unusable =>
      cases stocked with
      | top expiration enough =>
          -- there is a URL left for this part, and it has not expired
          refine absurd ⟨?_, ?_⟩ unusable
          · intro nothing
            have := locals.partNumber.lt
            rw [nothing, List.length_nil] at enough
            omega
          · rw [expiration]
            exact early _ rfl
  | takeUrl urls fresh =>
      cases stocked with
      | top expiration enough =>
          rw [urls, List.length_cons, Nat.add_right_comm] at enough
          exact .filling expiration enough
  | urlsFailed answer => cases stocked
  | receiveUrls answer => cases stocked
  | pending => exact stocked
  | readFailed => exact .returned
  | nothingLeft => exact .completing
  | readMore nonempty room =>
      cases stocked with
      | filling expiration enough => exact .filling expiration enough
  | lastPart nonempty =>
      cases stocked with
      | filling expiration enough => exact .uploadingPart expiration enough
  | fullPart nonempty full =>
      cases stocked with
      | filling expiration enough => exact .uploadingPart expiration enough
  | partFailed answer => exact .returned
  | allParts answer short => exact .completing
  | tooManyParts answer full largest => exact .returned
  | nextPart answer full next =>
      cases stocked with
      | uploadingPart expiration enough =>
          rw [Nat.add_assoc, ← next] at enough
          exact .top expiration enough
  | completionFailed answer => exact .returned
  | completed answer => exact .returned

/-- The stock lasts as long as the URLs do not expire. -/
theorem Stocked.after {env : Env E} {s : Session E} (stocked : Stocked expirationTs s.upload)
    (early : ∀ t, env.clock t + fromSecs 10 < expirationTs) (t : ℕ) :
    Stocked expirationTs (s.after fmt cache env t).upload := by
  induction t with
  | zero => exact stocked
  | succ t ih =>
      rw [Session.after]
      rcases next_spec (s.after fmt cache env t) with
        unchanged | ⟨input, upload', reader, out, hinput, step, next⟩
      · rw [unchanged]
        exact ih
      · rw [next]
        refine ih.step (fun now clock => ?_) step
        rw [Session.clock_of_input hinput clock]
        exact early t

/-- With a stock of URLs none are requested. -/
theorem Stocked.ne_requestingUrls {env : Env E} {s : Session E}
    (stocked : Stocked expirationTs s.upload)
    (early : ∀ t, env.clock t + fromSecs 10 < expirationTs) {t : ℕ} {reader : Source UInt8 E} :
    s.after fmt cache env t ≠ ⟨.requestingUrls locals, reader⟩ := by
  intro h
  have still : Stocked expirationTs (s.after fmt cache env t).upload := stocked.after early t
  rw [h] at still
  cases still

end Stocked

/-- Parts of one byte, and the URLs of all parts. -/
def oneByteParts : NarUploadState :=
  { twoByteParts with
    partSize := ⟨1, Nat.one_pos, Nat.one_lt_two_pow (Nat.succ_ne_zero 31)⟩
    partUrls := (List.range' 1 65535).map partUrlOf }

/-- A NAR of as many bytes as there are part numbers. -/
def largestNar : Source UInt8 Unit :=
  { threeBytes with remaining := List.replicate 65535 0 }

/-- A batch with a URL for every part, valid for a minute. -/
theorem oneByteParts_stocked :
    Stocked oneByteParts.urlsExpirationTs (Upload.start oneByteParts : Upload Unit) := by
  apply stocked_start
  apply Nat.le_of_eq
  unfold oneByteParts
  rw [List.length_map, List.length_range']

/-! ## Runs -/

/-- The request for URLs that the upload of three bytes waits for is the one for
part 2. -/
theorem threeBytes_requests {t : ℕ} {locals : Locals} {reader : Source UInt8 Unit}
    (h : Session.after secondPartFormats exampleCache answeringEnv
      ⟨Upload.start twoByteParts, threeBytes⟩ t = ⟨.requestingUrls locals, reader⟩) :
    locals.partNumber.val = 2 := by
  have early : ∀ t < 11, ∀ number ∈ (match (Session.after secondPartFormats exampleCache
      answeringEnv ⟨Upload.start twoByteParts, threeBytes⟩ t).upload with
        | .requestingUrls locals => some locals.partNumber.val
        | _ => none), number = 2 := by
    decide +kernel
  have done : ∃ state result, (Session.after secondPartFormats exampleCache answeringEnv
      ⟨Upload.start twoByteParts, threeBytes⟩ 11).upload = .returned state result :=
    ⟨{ twoByteParts with
        partUrls := [partUrlOf 3, partUrlOf 4, partUrlOf 5], urlsExpirationTs := fromSecs 90 },
      .ok (), by decide +kernel⟩
  by_cases before : t < 11
  · have number := early t before
    rw [h] at number
    exact number _ rfl
  · obtain ⟨state, result, later⟩ := returned_later done (t - 11)
    rw [Nat.add_sub_cancel' (Nat.le_of_not_lt before), h] at later
    cases later

theorem uploadPart_answered (request : Request) :
    uploadPart secondPartFormats request (answered "\"a\"") = .ok "a" := by
  have quoted : parseQuoted secondPartFormats "\"a\"" = .ok "a" := by decide +kernel
  show (parseQuoted secondPartFormats "\"a\"").mapError .parseEtag = _
  rw [quoted]
  rfl

/-- Three bytes in parts of two. -/
theorem accepts_fitting_three_bytes :
    AcceptsFitting secondPartFormats exampleCache answeringEnv twoByteParts threeBytes := by
  have succeeds : Succeeds secondPartFormats exampleCache answeringEnv
      ⟨Upload.start twoByteParts, threeBytes⟩ :=
    { partUrls := by
        intro t locals reader h
        refine ⟨_, rfl, ?_, show 0 < fromSecs 90 by decide⟩
        rw [← List.length_map NonZero.val, map_val_newPartNumbers, threeBytes_requests h]
        rfl
      part := fun _ _ _ _ _ _ => ⟨"a", uploadPart_answered _⟩
      complete := fun _ _ _ _ => rfl }
  refine (accepts_fitting_iff secondPartFormats exampleCache answeringEnv twoByteParts
    threeBytes_fair rfl succeeds).mpr fun _ _ => ⟨by decide, ?_⟩
  intro t locals reader _
  refine ⟨0, fun parts ok => ?_⟩
  cases ok
  exact ⟨by simp, show 0 + fromSecs 10 < fromSecs 90 by decide⟩

/-- The largest NAR that fits is refused, though every request succeeds. -/
theorem largest_nar_refused :
    largestNar.remaining.length = 65535 * oneByteParts.partSize.val ∧
      Succeeds secondPartFormats exampleCache answeringEnv
        ⟨Upload.start oneByteParts, largestNar⟩ ∧
      (∃ n state', (Session.after secondPartFormats exampleCache answeringEnv
          ⟨Upload.start oneByteParts, largestNar⟩ n).upload =
        .returned state' (.error .tooManyNarParts)) ∧
      ¬ AcceptsFitting secondPartFormats exampleCache answeringEnv oneByteParts largestNar := by
  have size : largestNar.remaining.length = 65535 * oneByteParts.partSize.val :=
    List.length_replicate
  have unrequested : ∀ t locals reader, Session.after secondPartFormats exampleCache answeringEnv
      ⟨Upload.start oneByteParts, largestNar⟩ t ≠ ⟨.requestingUrls locals, reader⟩ :=
    fun _ _ _ => oneByteParts_stocked.ne_requestingUrls fun _ =>
      show 0 + fromSecs 10 < fromSecs 60 by decide
  have succeeds : Succeeds secondPartFormats exampleCache answeringEnv
      ⟨Upload.start oneByteParts, largestNar⟩ :=
    { partUrls := fun t locals reader h => absurd h (unrequested t locals reader)
      part := fun _ _ _ _ _ _ => ⟨"a", uploadPart_answered _⟩
      complete := fun _ _ _ _ => rfl }
  have settle : AnswersSettle secondPartFormats exampleCache answeringEnv
      ⟨Upload.start oneByteParts, largestNar⟩ :=
    fun t locals reader h => absurd h (unrequested t locals reader)
  have fair : largestNar.Fair := threeBytes_fair
  obtain ⟨n, state', result, returned⟩ := top_returns (t := 0) settle rfl fair
  rcases result_of_returned rfl succeeds returned with ⟨-, below⟩ | ⟨rfl, -⟩
  · exact absurd size (Nat.ne_of_lt below)
  · exact ⟨size, succeeds, ⟨n, state', returned⟩, fun accepts =>
      absurd size (Nat.ne_of_gt (accepts.refused n state' returned))⟩

end Sub60

end CacheAction
