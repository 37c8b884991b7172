import CacheAction.Sub60.Reassembly

/-!
# Termination of an upload

Here `upload_nar` runs against a given environment: a clock, what comes of each
request, and a reader with its schedule.  Every part that is uploaded brings the
part number closer to its limit, and a fair reader fills the buffer or comes to
its end.  What is left are the turns that request URLs, of which the loop makes
as many as it takes to get a URL that has not expired by the time it is looked
at.

`upload_terminates_iff` says that this is all there is to it: the upload returns
exactly if, whenever it asks for URLs, one of the answers to come is an error or
holds a URL and is still valid at the next reading of the clock.  A server that
answers with an empty list for ever keeps it busy for ever
(`empty_batches_never_return`).

### Three loops

The program has three nested loops, and each has a reason of its own to end.

* The polls of one `try_fill` end because the reader is fair, and each read that is not
  pending fills up the buffer or tells of the end.
* The parts end because they are numbered with 16 bits.
* The turns that request URLs have no bound in the program at all.  Whether they end is up to
  the server and the clock, and the condition says nothing else (`AnswersSettle`): of the
  answers to come, one is refused or can be used at the next look at the clock.

The condition is about the requests that are made from the moment of each request on.  It does
not say that the upload returns; that it is also necessary is shown by following the requests
that never settle (`refill_forever`).
-/

namespace CacheAction

namespace Sub60

variable {E : Type} (fmt : Formats E) (cache : Sub60Cache)

/-- The environment of an upload.  The functions give what happens at each step;
the reader is part of the session. -/
structure Env (E : Type) where
  clock : ℕ → Duration
  partUrls : ℕ → Sent E
  part : ℕ → Sent E × Bool
  complete : ℕ → Sent E

/-- `upload_nar` and its reader. -/
structure Session (E : Type) where
  upload : Upload E
  reader : Source UInt8 E

namespace Session

/-- What `upload_nar` gets at step `n`, and the reader afterwards; nothing once
it has returned. -/
def input (env : Env E) (n : ℕ) (s : Session E) : Option (UploadInput E × Source UInt8 E) :=
  match s.upload with
  | .top _ => some (.clock (env.clock n), s.reader)
  | .requestingUrls _ => some (.partUrls (env.partUrls n), s.reader)
  | .filling locals _ numRead =>
      let polled := s.reader.pollRead (locals.partBytesBuf.length - numRead)
      some (.read polled.1, polled.2)
  | .uploadingPart _ _ _ => some (.part (env.part n).1 (env.part n).2, s.reader)
  | .completing _ => some (.complete (env.complete n), s.reader)
  | .returned _ _ => none

/-- Step `n`. -/
def next (env : Env E) (n : ℕ) (s : Session E) : Session E :=
  match s.input env n with
  | none => s
  | some (input, reader) =>
      match Upload.step fmt cache s.upload input with
      | none => s
      | some (upload, _) => { upload, reader }

/-- The session after `n` steps. -/
def after (env : Env E) (s : Session E) : ℕ → Session E
  | 0 => s
  | n + 1 => (after env s n).next fmt cache env n

/-- `upload_nar` has returned. -/
def Returned (s : Session E) : Prop :=
  ∃ state result, s.upload = .returned state result

end Session

/-- The answer that arrives at step `t` is an error, or holds a URL and has not
expired when the clock is read next, ten seconds in advance. -/
def Settles (env : Env E) (request : Request) (t : ℕ) : Prop :=
  ∀ parts, requestPartUrls fmt request (env.partUrls t) = .ok parts →
    parts.urls ≠ [] ∧ env.clock (t + 1) + fromSecs 10 < parts.expirationTs

/-- What `upload_nar` does against an environment is a run of its machine. -/
theorem after_is_run (env : Env E) (s : Session E) (n : ℕ) :
    ∃ is trace, (uploadMachine fmt cache).run s.upload is =
      some ((s.after fmt cache env n).upload, trace) := by
  induction n with
  | zero => exact ⟨[], [], rfl⟩
  | succ n ih =>
      obtain ⟨is, trace, hrun⟩ := ih
      rw [Session.after, Session.next]
      split
      · exact ⟨is, trace, hrun⟩
      · rename_i input reader hinput
        split
        · exact ⟨is, trace, hrun⟩
        · rename_i upload out hstep
          refine ⟨is ++ [input], trace ++ (out ++ []), (uploadMachine fmt cache).run_append hrun ?_⟩
          exact (uploadMachine fmt cache).run_cons_eq_some.mpr ⟨_, _, _, hstep, rfl, rfl⟩

section Steps

variable {fmt cache} {env : Env E} {s : Session E} {n t : ℕ}

theorem returned_next (returned : s.Returned) : (s.next fmt cache env n).Returned := by
  obtain ⟨state, result, h⟩ := returned
  refine ⟨state, result, ?_⟩
  simp only [Session.next, Session.input, h]

theorem returned_later (returned : (s.after fmt cache env t).Returned) (k : ℕ) :
    (s.after fmt cache env (t + k)).Returned := by
  induction k with
  | zero => exact returned
  | succ k ih => exact returned_next ih

/-- A step against the environment is a step of the upload, if there is one. -/
theorem next_spec (s : Session E) :
    s.next fmt cache env n = s ∨
      ∃ input upload reader out, s.input env n = some (input, reader) ∧
        UploadStep fmt cache s.upload input upload out ∧
        s.next fmt cache env n = ⟨upload, reader⟩ := by
  unfold Session.next
  split
  · exact Or.inl rfl
  · rename_i input reader hinput
    split
    · exact Or.inl rfl
    · rename_i upload out hstep
      exact Or.inr ⟨input, upload, reader, out, hinput, Upload.step_spec hstep, rfl⟩

/-- The clock is read at the current step. -/
theorem Session.clock_of_input {s : Session E} {input : UploadInput E} {reader : Source UInt8 E}
    (h : s.input env n = some (input, reader)) {now : Duration} (clock : input = .clock now) :
    now = env.clock n := by
  subst clock
  unfold Session.input at h
  split at h <;> cases h
  rfl

/-- The reader is polled with the room left in the buffer. -/
theorem Session.polled_of_input {locals : Locals} {partUrl : Url} {numRead : ℕ}
    {reader reader' : Source UInt8 E} {polled : Poll (Except E (List UInt8))}
    (h : Session.input env n ⟨.filling locals partUrl numRead, reader⟩ =
      some (.read polled, reader')) :
    reader.pollRead (locals.partBytesBuf.length - numRead) = (polled, reader') := by
  cases h
  rfl

theorem next_top {locals : Locals} {reader : Source UInt8 E} :
    (Session.mk (.top locals) reader).next fmt cache env n =
      ⟨(Upload.takeUrl locals (env.clock n)).1, reader⟩ := rfl

theorem next_requestingUrls {locals : Locals} {reader : Source UInt8 E} :
    (Session.mk (.requestingUrls locals) reader).next fmt cache env n =
      ⟨(Upload.receiveUrls fmt cache locals (env.partUrls n)).1, reader⟩ := rfl

theorem next_uploadingPart {locals : Locals} {partUrl : Url} {partBytes : List UInt8}
    {reader : Source UInt8 E} :
    (Session.mk (.uploadingPart locals partUrl partBytes) reader).next fmt cache env n =
      ⟨(Upload.receiveEtag fmt cache locals partUrl partBytes (env.part n).1 (env.part n).2).1,
        reader⟩ := rfl

theorem next_completing {locals : Locals} {reader : Source UInt8 E} :
    (Session.mk (.completing locals) reader).next fmt cache env n =
      ⟨(Upload.receiveCompletion fmt cache locals (env.complete n)).1, reader⟩ := rfl

/-! ## Requesting URLs -/

/-- The first half of a turn takes a URL, or requests some and has none left. -/
theorem takeUrl_cases (fmt : Formats E) (cache : Sub60Cache) (locals : Locals) (now : Duration) :
    (¬ Usable locals.state.partUrls locals.state.urlsExpirationTs now ∧
        ∃ locals', (Upload.takeUrl (E := E) locals now).1 = .requestingUrls locals' ∧
          locals'.partNumber = locals.partNumber ∧ locals'.state.partUrls = [] ∧
          Upload.partUrlsCall locals' = Upload.partUrlsCall locals) ∨
      (Usable locals.state.partUrls locals.state.urlsExpirationTs now ∧
        ∃ locals' partUrl, (Upload.takeUrl (E := E) locals now).1 = .filling locals' partUrl 0 ∧
          locals'.partNumber = locals.partNumber) := by
  have turn : UploadStep fmt cache (.top locals) (.clock now) _ _ := Upload.takeUrl_spec locals now
  generalize Upload.takeUrl (E := E) locals now = taken at turn ⊢
  obtain ⟨upload, out⟩ := taken
  cases turn with
  | requestUrls unusable => exact Or.inl ⟨unusable, _, rfl, rfl, rfl, rfl⟩
  | takeUrl urls fresh => exact Or.inr ⟨⟨by simp [urls], fresh⟩, _, _, rfl, rfl⟩

/-- An answer that is accepted settles if its URLs can be used at once. -/
theorem settles_iff {request : Request} {parts : PartsResponseBody}
    (answer : requestPartUrls fmt request (env.partUrls t) = .ok parts) :
    Settles fmt env request t ↔ Usable parts.urls parts.expirationTs (env.clock (t + 1)) := by
  constructor
  · exact fun all => all parts answer
  · intro usable parts' ok
    obtain rfl := Except.ok.inj (answer.symm.trans ok)
    exact usable

/-- One turn that requests URLs: it settles, or the next one requests them
again, for the same part. -/
theorem refill {locals : Locals} {reader : Source UInt8 E}
    (h : s.after fmt cache env t = ⟨.requestingUrls locals, reader⟩)
    (empty : locals.state.partUrls = []) :
    (Settles fmt env (cache.request fmt (Upload.partUrlsCall locals)) t ∧
        ((s.after fmt cache env (t + 1)).Returned ∨
          ∃ locals' partUrl, s.after fmt cache env (t + 2) = ⟨.filling locals' partUrl 0, reader⟩ ∧
            locals'.partNumber = locals.partNumber)) ∨
      (¬ Settles fmt env (cache.request fmt (Upload.partUrlsCall locals)) t ∧
        ∃ locals', s.after fmt cache env (t + 2) = ⟨.requestingUrls locals', reader⟩ ∧
          locals'.partNumber = locals.partNumber ∧ locals'.state.partUrls = [] ∧
          Upload.partUrlsCall locals' = Upload.partUrlsCall locals) := by
  have first : s.after fmt cache env (t + 1) =
      ⟨(Upload.receiveUrls fmt cache locals (env.partUrls t)).1, reader⟩ := by
    rw [Session.after, h, next_requestingUrls]
  cases answer : requestPartUrls fmt (cache.request fmt (Upload.partUrlsCall locals))
      (env.partUrls t) with
  | error e =>
      -- an error ends the upload
      refine Or.inl ⟨?_, Or.inl ⟨locals.state, .error e, ?_⟩⟩
      · intro parts ok
        rw [answer] at ok
        cases ok
      · rw [first]
        simp only [Upload.receiveUrls, answer]
  | ok parts =>
      obtain ⟨loaded, toTop, number, urls, expiration, call⟩ :
          ∃ loaded, (Upload.receiveUrls fmt cache locals (env.partUrls t)).1 = .top loaded ∧
            loaded.partNumber = locals.partNumber ∧ loaded.state.partUrls = parts.urls ∧
            loaded.state.urlsExpirationTs = parts.expirationTs ∧
            Upload.partUrlsCall loaded = Upload.partUrlsCall locals := by
        simp only [Upload.receiveUrls, answer]
        exact ⟨_, rfl, rfl, by simp [empty], rfl, rfl⟩
      -- the queue was empty, so the URLs are those of the answer
      have second : s.after fmt cache env (t + 2) =
          ⟨(Upload.takeUrl loaded (env.clock (t + 1))).1, reader⟩ := by
        rw [Session.after, first, toTop, next_top]
      have settles := settles_iff answer
      rw [← urls, ← expiration] at settles
      rcases takeUrl_cases fmt cache loaded (env.clock (t + 1)) with
        ⟨unusable, locals', next, number', empty', call'⟩ |
          ⟨usable, locals', partUrl, next, number'⟩
      · rw [next] at second
        exact Or.inr ⟨fun all => unusable (settles.mp all), locals', second,
          number'.trans number, empty', call'.trans call⟩
      · rw [next] at second
        exact Or.inl ⟨settles.mpr usable, Or.inr ⟨locals', partUrl, second,
          number'.trans number⟩⟩

/-- As long as no answer settles, URLs are requested. -/
theorem refill_forever {locals : Locals} {reader : Source UInt8 E}
    (h : s.after fmt cache env t = ⟨.requestingUrls locals, reader⟩)
    (empty : locals.state.partUrls = [])
    (never : ∀ k, ¬ Settles fmt env (cache.request fmt (Upload.partUrlsCall locals)) (t + 2 * k))
    (k : ℕ) :
    ∃ locals', s.after fmt cache env (t + 2 * k) = ⟨.requestingUrls locals', reader⟩ ∧
      locals'.state.partUrls = [] ∧
      Upload.partUrlsCall locals' = Upload.partUrlsCall locals := by
  induction k with
  | zero => exact ⟨locals, h, empty, rfl⟩
  | succ k ih =>
      obtain ⟨locals', h', empty', call⟩ := ih
      rcases refill h' empty' with ⟨settled, -⟩ | ⟨-, locals'', h'', -, empty'', call'⟩
      · rw [call] at settled
        exact absurd settled (never k)
      · exact ⟨locals'', h'', empty'', call'.trans call⟩

/-- Once an answer settles, a part is read or the upload has returned. -/
theorem refill_ends {locals : Locals} {reader : Source UInt8 E}
    (h : s.after fmt cache env t = ⟨.requestingUrls locals, reader⟩)
    (empty : locals.state.partUrls = []) {k : ℕ}
    (settles : Settles fmt env (cache.request fmt (Upload.partUrlsCall locals)) (t + 2 * k)) :
    ∃ m, (s.after fmt cache env m).Returned ∨
      ∃ locals' partUrl, s.after fmt cache env m = ⟨.filling locals' partUrl 0, reader⟩ ∧
        locals'.partNumber = locals.partNumber := by
  induction k generalizing t locals with
  | zero =>
      rcases refill h empty with ⟨-, returned | reading⟩ | ⟨unsettled, -⟩
      · exact ⟨_, Or.inl returned⟩
      · exact ⟨_, Or.inr reading⟩
      · exact absurd settles unsettled
  | succ k ih =>
      rcases refill h empty with ⟨-, returned | reading⟩ | ⟨-, locals', h', number, empty', call⟩
      · exact ⟨_, Or.inl returned⟩
      · exact ⟨_, Or.inr reading⟩
      · rw [← call, show t + 2 * (k + 1) = t + 2 + 2 * k by omega] at settles
        rw [← number]
        exact ih h' empty' settles

/-! ## Reading and uploading a part -/

/-- The session reads what the reader delivers. -/
theorem next_filling {locals : Locals} {partUrl : Url} {numRead : ℕ}
    {reader reader' : Source UInt8 E} {polled : Poll (Except E (List UInt8))} {upload : Upload E}
    {out : List UploadObs}
    (hpoll : reader.pollRead (locals.partBytesBuf.length - numRead) = (polled, reader'))
    (hfill : Upload.fill locals partUrl numRead polled = some (upload, out)) :
    (Session.mk (.filling locals partUrl numRead) reader).next fmt cache env n =
      ⟨upload, reader'⟩ := by
  simp only [Session.next, Session.input, hpoll, Upload.step, hfill]

/-- A buffer that has been filled is put as a part, or was empty. -/
theorem filled_cases (locals : Locals) (partUrl : Url) (numRead : ℕ) :
    (∃ locals', (Upload.filled (E := E) locals partUrl numRead).1 = .completing locals') ∨
      ∃ locals' partBytes, (Upload.filled (E := E) locals partUrl numRead).1 =
          .uploadingPart locals' partUrl partBytes ∧
        locals'.partNumber = locals.partNumber := by
  unfold Upload.filled
  split
  · exact Or.inl ⟨_, rfl⟩
  · exact Or.inr ⟨_, _, rfl, rfl⟩

/-- A part has been read: what follows is the completion or its upload. -/
def PartRead (s : Session E) (number : NonZero 16) : Prop :=
  s.Returned ∨ (∃ locals reader, s = ⟨.completing locals, reader⟩) ∨
    ∃ locals partUrl partBytes reader,
      s = ⟨.uploadingPart locals partUrl partBytes, reader⟩ ∧
        locals.partNumber = number ∧ reader.Fair

/-- Then the part has been read. -/
theorem partRead_filled {locals : Locals} {partUrl : Url} {numRead : ℕ}
    {reader : Source UInt8 E} (fair : reader.Fair) :
    PartRead ⟨(Upload.filled locals partUrl numRead).1, reader⟩ locals.partNumber := by
  rcases filled_cases (E := E) locals partUrl numRead with
    ⟨locals', done⟩ | ⟨locals', partBytes, uploading, number⟩
  · exact Or.inr (Or.inl ⟨locals', reader, by rw [done]⟩)
  · exact Or.inr (Or.inr ⟨locals', partUrl, partBytes, reader, by rw [uploading], number, fair⟩)

/-- A fair reader fills the buffer or comes to its end.  The induction is on the
room left in the buffer and, for the same room, on the number of pending answers
that the reader still has in a row. -/
theorem fill_ends {locals : Locals} {partUrl : Url} {numRead : ℕ} {reader : Source UInt8 E}
    (h : s.after fmt cache env t = ⟨.filling locals partUrl numRead, reader⟩)
    (fair : reader.Fair) : ∃ m, PartRead (s.after fmt cache env m) locals.partNumber := by
  generalize hroom : locals.partBytesBuf.length - numRead = room
  induction room using Nat.strongRecOn generalizing t locals numRead reader with
  | ind room outer =>
      obtain ⟨pendings, hm⟩ := fair 0
      rw [Nat.zero_add] at hm
      induction pendings generalizing t reader with
      | zero | succ pendings inner =>
          obtain ⟨polled, rest, hpoll, answer⟩ :=
            reader.pollRead_spec (locals.partBytesBuf.length - numRead)
          have fair' := fair.advance 1 rest
          have next : ∀ {upload out},
              Upload.fill locals partUrl numRead polled = some (upload, out) →
                s.after fmt cache env (t + 1) = ⟨upload, reader.advance 1 rest⟩ := by
            intro upload out hfill
            rw [Session.after, h, next_filling hpoll hfill]
          cases answer with
          | pending scheduled =>
              -- one pending answer less, or none was left
              first
              | exact absurd scheduled hm
              | exact inner (next rfl) fair' hm
          | noRoom full =>
              exact ⟨t + 1, by rw [next rfl]; exact partRead_filled fair'⟩
          | eof _ exhausted ending =>
              exact ⟨t + 1, by rw [next rfl]; exact partRead_filled fair'⟩
          | failure e _ exhausted ending =>
              exact ⟨t + 1, by rw [next rfl]; exact Or.inl ⟨_, _, rfl⟩⟩
          | chunk data rest nonempty fits split =>
              obtain ⟨b, data, rfl⟩ := List.exists_cons_of_ne_nil nonempty
              have inside : numRead + (b :: data).length ≤ locals.partBytesBuf.length := by
                have : 0 < (b :: data).length := by simp
                omega
              have hlen := length_overwrite inside
              simp only [Upload.fill, if_pos inside] at next
              -- there is less room, or the buffer is full
              by_cases more : numRead + (b :: data).length <
                  (overwrite locals.partBytesBuf numRead (b :: data)).length
              · rw [if_pos more] at next
                show ∃ m, PartRead (s.after fmt cache env m) ({ locals with
                  partBytesBuf := overwrite locals.partBytesBuf numRead (b :: data) } :
                    Locals).partNumber
                refine outer _ ?_ (next rfl) fair' rfl
                rw [← hroom]
                simp only [hlen, List.length_cons] at more ⊢
                omega
              · rw [if_neg more] at next
                exact ⟨t + 1, by rw [next rfl]; exact partRead_filled fair'⟩

variable (fmt cache) in
/-- The answer to an uploaded part ends the upload or leads to the next part. -/
theorem receiveEtag_cases (locals : Locals) (partUrl : Url) (partBytes : List UInt8)
    (sent : Sent E) (unique : Bool) :
    (∃ state result, (Upload.receiveEtag fmt cache locals partUrl partBytes sent unique).1 =
        .returned state result) ∨
      (∃ locals', (Upload.receiveEtag fmt cache locals partUrl partBytes sent unique).1 =
        .completing locals') ∨
      ∃ locals', (Upload.receiveEtag fmt cache locals partUrl partBytes sent unique).1 =
          .top locals' ∧
        locals'.partNumber.val = locals.partNumber.val + 1 := by
  have turn : UploadStep fmt cache (.uploadingPart locals partUrl partBytes) (.part sent unique)
      _ _ := Upload.receiveEtag_spec locals partUrl partBytes sent unique
  generalize Upload.receiveEtag fmt cache locals partUrl partBytes sent unique = received at turn ⊢
  obtain ⟨upload, out⟩ := received
  cases turn with
  | partFailed answer => exact Or.inl ⟨_, _, rfl⟩
  | tooManyParts answer full largest => exact Or.inl ⟨_, _, rfl⟩
  | allParts answer short => exact Or.inr (Or.inl ⟨_, rfl⟩)
  | nextPart answer full next => exact Or.inr (Or.inr ⟨_, rfl, next⟩)

/-- The completion is one request. -/
theorem completing_returns {locals : Locals} {reader : Source UInt8 E}
    (h : s.after fmt cache env t = ⟨.completing locals, reader⟩) :
    ∃ m, (s.after fmt cache env m).Returned := by
  refine ⟨t + 1, ?_⟩
  rw [Session.after, h, next_completing]
  unfold Upload.receiveCompletion
  split <;> exact ⟨_, _, rfl⟩

/-- From a read part the upload returns, or comes to the top of the loop with the
next part number. -/
theorem partRead_ends {number : NonZero 16}
    (read : PartRead (s.after fmt cache env t) number) :
    (∃ m, (s.after fmt cache env m).Returned) ∨
      ∃ m locals reader, s.after fmt cache env m = ⟨.top locals, reader⟩ ∧
        locals.partNumber.val = number.val + 1 ∧ reader.Fair := by
  rcases read with returned | ⟨locals, reader, h⟩ | ⟨locals, partUrl, partBytes, reader, h, rfl, fair⟩
  · exact Or.inl ⟨t, returned⟩
  · exact Or.inl (completing_returns h)
  · have next : s.after fmt cache env (t + 1) = ⟨(Upload.receiveEtag fmt cache locals partUrl
        partBytes (env.part t).1 (env.part t).2).1, reader⟩ := by
      rw [Session.after, h, next_uploadingPart]
    rcases receiveEtag_cases fmt cache locals partUrl partBytes
        (env.part t).1 (env.part t).2 with
      ⟨state, result, done⟩ | ⟨locals', done⟩ | ⟨locals', done, number⟩
    · exact Or.inl ⟨t + 1, state, result, by rw [next, done]⟩
    · rw [done] at next
      exact Or.inl (completing_returns next)
    · rw [done] at next
      exact Or.inr ⟨t + 1, locals', reader, next, number, fair⟩

/-! ## The whole upload -/

variable (fmt cache) in
/-- Whenever URLs are requested, some answer to come settles. -/
def AnswersSettle (env : Env E) (s : Session E) : Prop :=
  ∀ t locals reader, s.after fmt cache env t = ⟨.requestingUrls locals, reader⟩ →
    ∃ k, Settles fmt env (cache.request fmt (Upload.partUrlsCall locals)) (t + 2 * k)

/-- The upload returns from the top of its loop.  The induction is on the number
of part numbers left. -/
theorem top_returns (settle : AnswersSettle fmt cache env s) {locals : Locals}
    {reader : Source UInt8 E} (h : s.after fmt cache env t = ⟨.top locals, reader⟩)
    (fair : reader.Fair) : ∃ m, (s.after fmt cache env m).Returned := by
  generalize hleft : 2 ^ 16 - locals.partNumber.val = left
  induction left using Nat.strongRecOn generalizing t locals reader with
  | ind left ih =>
      -- in either case a part is read, and then the number grows
      have reading : (∃ m, (s.after fmt cache env m).Returned) ∨
          ∃ m locals' partUrl, s.after fmt cache env m = ⟨.filling locals' partUrl 0, reader⟩ ∧
            locals'.partNumber = locals.partNumber := by
        have next : s.after fmt cache env (t + 1) =
            ⟨(Upload.takeUrl locals (env.clock t)).1, reader⟩ := by
          rw [Session.after, h, next_top]
        rcases takeUrl_cases fmt cache locals (env.clock t) with
          ⟨-, locals', turn, number, empty, -⟩ | ⟨-, locals', partUrl, turn, number⟩
        · rw [turn] at next
          obtain ⟨k, settles⟩ := settle _ _ _ next
          obtain ⟨m, returned | ⟨locals'', partUrl, hm, number'⟩⟩ := refill_ends next empty settles
          · exact Or.inl ⟨m, returned⟩
          · exact Or.inr ⟨m, locals'', partUrl, hm, number'.trans number⟩
        · rw [turn] at next
          exact Or.inr ⟨t + 1, locals', partUrl, next, number⟩
      rcases reading with returned | ⟨m, locals', partUrl, hm, number⟩
      · exact returned
      · obtain ⟨m', read⟩ := fill_ends hm fair
        rcases partRead_ends read with returned | ⟨m'', locals'', reader'', htop, grown, fair'⟩
        · exact returned
        · refine ih _ ?_ htop fair' rfl
          have := locals''.partNumber.lt
          rw [number] at grown
          omega

end Steps

/-- URLs are requested only when none is left. -/
theorem empty_of_requesting (env : Env E) {s : Session E} (start : ∃ locals, s.upload = .top locals)
    {t : ℕ} {locals : Locals}
    (h : (s.after fmt cache env t).upload = .requestingUrls locals) :
    locals.state.partUrls = [] := by
  induction t with
  | zero =>
      obtain ⟨locals', top⟩ := start
      rw [Session.after, top] at h
      cases h
  | succ t ih =>
      rw [Session.after] at h
      rcases next_spec (s.after fmt cache env t) with
        unchanged | ⟨input, upload', reader, out, -, step, next⟩
      · rw [unchanged] at h
        exact ih h
      · rw [next] at h
        obtain rfl : upload' = .requestingUrls locals := h
        generalize (s.after fmt cache env t).upload = upload at step
        cases step with
        | requestUrls unusable => rfl

/-- An upload whose requests for URLs are never settled does not return. -/
theorem never_returns {env : Env E} {s : Session E} {t : ℕ} {locals : Locals}
    {reader : Source UInt8 E} (h : s.after fmt cache env t = ⟨.requestingUrls locals, reader⟩)
    (empty : locals.state.partUrls = [])
    (never : ∀ k, ¬ Settles fmt env (cache.request fmt (Upload.partUrlsCall locals)) (t + 2 * k))
    (n : ℕ) : ¬ (s.after fmt cache env n).Returned := by
  intro returned
  -- at step `t + 2 * n` URLs are still requested, but the upload has returned by then
  obtain ⟨locals', still, -, -⟩ := refill_forever h empty never n
  obtain ⟨state, result, done⟩ := returned_later returned (t + n)
  rw [show n + (t + n) = t + 2 * n by omega, still] at done
  cases done

/-- **An upload returns exactly if its requests for URLs are settled**: whenever
URLs are requested, one of the answers to come is an error or holds a URL and is
still valid when the clock is read next.

Only that loop can go on for ever.  A part ends because the reader is fair and what it has
left is finite, so between two requests there is progress in the NAR; a batch without a
URL that can be used leads back to the request, with the same part number. -/
theorem upload_terminates_iff (env : Env E) (state : NarUploadState) {reader : Source UInt8 E}
    (fair : reader.Fair) :
    (∃ n, (Session.after fmt cache env ⟨Upload.start state, reader⟩ n).Returned) ↔
      AnswersSettle fmt cache env ⟨Upload.start state, reader⟩ := by
  constructor
  · rintro ⟨n, returned⟩ t locals reader' h
    by_contra never
    have empty := empty_of_requesting fmt cache env ⟨_, rfl⟩ (congrArg Session.upload h)
    exact never_returns fmt cache h empty (not_exists.mp never) n returned
  · intro settle
    exact top_returns (t := 0) settle rfl fair

/-- Every request is answered, at time zero. -/
def answeringEnv : Env Unit where
  clock _ := 0
  partUrls _ := answered ""
  part _ := (answered "\"a\"", true)
  complete _ := answered ""

/-- A reader of three bytes. -/
def threeBytes : Source UInt8 Unit where
  remaining := [1, 2, 3]
  ending := .eof
  schedule _ := .upTo 1

theorem threeBytes_fair : threeBytes.Fair := fun n => ⟨0, by simp [threeBytes]⟩

theorem upload_terminates_iff_three_bytes :
    ∃ n, (Session.after secondPartFormats exampleCache answeringEnv
      ⟨Upload.start twoByteParts, threeBytes⟩ n).Returned := by
  refine (upload_terminates_iff secondPartFormats exampleCache answeringEnv twoByteParts
    threeBytes_fair).mpr ?_
  intro t locals reader _
  refine ⟨0, fun parts ok => ?_⟩
  cases ok
  exact ⟨by simp, show 0 + fromSecs 10 < fromSecs 90 by decide⟩

/-- The same server, with lists of no URL. -/
def emptyBatchFormats : Formats Unit :=
  { secondPartFormats with parseParts := fun _ => .ok { urls := [], expirationTs := fromSecs 90 } }

/-- Every answer is accepted and the clock does not go back, but the upload of
three bytes never returns. -/
theorem empty_batches_never_return :
    (∀ t, answeringEnv.clock t ≤ answeringEnv.clock (t + 1)) ∧
      (∀ request t, requestPartUrls emptyBatchFormats request (answeringEnv.partUrls t) =
        .ok { urls := [], expirationTs := fromSecs 90 }) ∧
      ∀ n, ¬ (Session.after emptyBatchFormats exampleCache answeringEnv
        ⟨Upload.start { twoByteParts with partUrls := [] }, threeBytes⟩ n).Returned := by
  refine ⟨fun _ => Nat.le_refl _, fun _ _ => rfl, fun n => ?_⟩
  have requesting : Session.after emptyBatchFormats exampleCache answeringEnv
      ⟨Upload.start { twoByteParts with partUrls := [] }, threeBytes⟩ 1 =
        ⟨.requestingUrls _, threeBytes⟩ := rfl
  refine never_returns emptyBatchFormats exampleCache requesting rfl ?_ n
  intro k settles
  exact (settles _ rfl).1 rfl

end Sub60

end CacheAction
