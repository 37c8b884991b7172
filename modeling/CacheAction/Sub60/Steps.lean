import CacheAction.Sub60.UploadNar

/-!
# What a step of an upload can do

`UploadStep` lists everything that a step of `upload_nar` can do, with what is
known when it does it and what comes out.  `Upload.step_spec` says that the list
is complete; invariants of the upload are shown case by case from there and need
not look at the program again.

### Why a relation beside the function

`Upload.step` follows the source: it nests the tests as the program makes them, and what is
known in a branch is spread over several definitions.  Here a branch is a constructor, and
its guards are in the terms of the invariants (`Usable` and not a comparison whose negation
empties a queue; `numRead + chunk.length` against the length of the buffer and not a
truncated list).  The invariants of an upload are proved over these steps, and so are those of
the handler that runs an upload as one of its halves; none of them unfolds `Upload.step`, so
a change of the program is a change of this module.

One direction is enough: an invariant needs to know that there are no other steps, never
that each of these is possible.  Where a proof needs a step that is possible
(`CacheAction.Sub60.Progress`), it evaluates the function.
-/

namespace CacheAction

namespace Sub60

variable {E : Type} (fmt : Formats E) (cache : Sub60Cache)

/-- The next URL can be used: there is one, and it has not expired. -/
def Usable (urls : List Url) (expirationTs now : Duration) : Prop :=
  urls ≠ [] ∧ now + fromSecs 10 < expirationTs

/-- The locals with these URLs left. -/
def Locals.withPartUrls (locals : Locals) (partUrls : List Url) : Locals :=
  { locals with state := { locals.state with partUrls } }

/-- The locals when `chunk` has been read after `numRead` bytes. -/
def Locals.receive (locals : Locals) (numRead : ℕ) (chunk : List UInt8) : Locals :=
  { locals with partBytesBuf := overwrite locals.partBytesBuf numRead chunk }

/-- Everything that a step can do. -/
inductive UploadStep : Upload E → UploadInput E → Upload E → List UploadObs → Prop where
  /-- No URL, or only expired ones: ask for the next four. -/
  | requestUrls {locals now}
      (unusable : ¬ Usable locals.state.partUrls locals.state.urlsExpirationTs now) :
      UploadStep (.top locals) (.clock now) (.requestingUrls (locals.withPartUrls []))
        [.called (Upload.partUrlsCall locals)]
  /-- The first URL is taken off the queue and kept for the part that is read next. -/
  | takeUrl {locals now partUrl rest} (urls : locals.state.partUrls = partUrl :: rest)
      (fresh : now + fromSecs 10 < locals.state.urlsExpirationTs) :
      UploadStep (.top locals) (.clock now) (.filling (locals.withPartUrls rest) partUrl 0) []
  | urlsFailed {locals sent e}
      (answer : requestPartUrls fmt (cache.request fmt (Upload.partUrlsCall locals)) sent =
        .error e) :
      UploadStep (.requestingUrls locals) (.partUrls sent) (.returned locals.state (.error e)) []
  /-- The URLs are queued, with the time until which they can be used. -/
  | receiveUrls {locals sent parts}
      (answer : requestPartUrls fmt (cache.request fmt (Upload.partUrlsCall locals)) sent =
        .ok parts) :
      UploadStep (.requestingUrls locals) (.partUrls sent)
        (.top { locals with
          state := { locals.state with
            partUrls := locals.state.partUrls ++ parts.urls
            urlsExpirationTs := parts.expirationTs } })
        [.partUrls (newPartNumbers locals.partNumber) parts.urls]
  /-- The reader has nothing yet. -/
  | pending {locals partUrl numRead} :
      UploadStep (.filling locals partUrl numRead) (.read .pending)
        (.filling locals partUrl numRead) []
  | readFailed {locals partUrl numRead e} :
      UploadStep (.filling locals partUrl numRead) (.read (.ready (.error e)))
        (.returned locals.state (.error (.readNar e))) [.readFailed]
  /-- The NAR ends where a part would have begun. -/
  | nothingLeft {locals partUrl} :
      UploadStep (.filling locals partUrl 0) (.read (.ready (.ok []))) (.completing locals)
        [.eof, .called (Upload.completeCall locals)]
  /-- The NAR ends within this part, which is put as far as it goes. -/
  | lastPart {locals partUrl numRead} (nonempty : numRead ≠ 0) :
      UploadStep (.filling locals partUrl numRead) (.read (.ready (.ok [])))
        (.uploadingPart locals partUrl (locals.partBytesBuf.take numRead))
        [.eof, .called (.uploadPart partUrl (locals.partBytesBuf.take numRead))]
  /-- Some bytes, and there is room for more. -/
  | readMore {locals partUrl numRead chunk} (nonempty : chunk ≠ [])
      (room : numRead + chunk.length < locals.partBytesBuf.length) :
      UploadStep (.filling locals partUrl numRead) (.read (.ready (.ok chunk)))
        (.filling (locals.receive numRead chunk) partUrl (numRead + chunk.length)) [.read chunk]
  /-- The bytes that fill the part. -/
  | fullPart {locals partUrl numRead chunk} (nonempty : chunk ≠ [])
      (full : numRead + chunk.length = locals.partBytesBuf.length) :
      UploadStep (.filling locals partUrl numRead) (.read (.ready (.ok chunk)))
        (.uploadingPart (locals.receive numRead chunk) partUrl
          (overwrite locals.partBytesBuf numRead chunk))
        [.read chunk,
          .called (.uploadPart partUrl (overwrite locals.partBytesBuf numRead chunk))]
  | partFailed {locals partUrl partBytes sent unique e}
      (answer : uploadPart fmt (cache.request fmt (.uploadPart partUrl partBytes)) sent =
        .error e) :
      UploadStep (.uploadingPart locals partUrl partBytes) (.part sent unique)
        (.returned locals.state (.error e)) [.partFailed]
  /-- The entity tag of the last part: the upload is completed with all of them. -/
  | allParts {locals partUrl partBytes sent unique etag}
      (answer : uploadPart fmt (cache.request fmt (.uploadPart partUrl partBytes)) sent =
        .ok etag)
      (short : partBytes.length < locals.state.partSize.val) :
      UploadStep (.uploadingPart locals partUrl partBytes) (.part sent unique)
        (.completing { locals with etags := locals.etags ++ [etag] })
        [.uploaded partUrl partBytes etag,
          .called (Upload.completeCall { locals with etags := locals.etags ++ [etag] })]
  /-- A full part after which there is no number for the next one. -/
  | tooManyParts {locals partUrl partBytes sent unique etag}
      (answer : uploadPart fmt (cache.request fmt (.uploadPart partUrl partBytes)) sent =
        .ok etag)
      (full : locals.state.partSize.val ≤ partBytes.length)
      (largest : locals.partNumber.checkedAdd 1 = none) :
      UploadStep (.uploadingPart locals partUrl partBytes) (.part sent unique)
        (.returned locals.state (.error .tooManyNarParts)) [.uploaded partUrl partBytes etag]
  /-- On to the next part, with the same buffer or a new one. -/
  | nextPart {locals partUrl partBytes sent unique etag partNumber}
      (answer : uploadPart fmt (cache.request fmt (.uploadPart partUrl partBytes)) sent =
        .ok etag)
      (full : locals.state.partSize.val ≤ partBytes.length)
      (next : partNumber.val = locals.partNumber.val + 1) :
      UploadStep (.uploadingPart locals partUrl partBytes) (.part sent unique)
        (.top { locals with
          partNumber
          etags := locals.etags ++ [etag]
          partBytesBuf :=
            if unique then partBytes else List.replicate locals.state.partSize.val 0 })
        [.uploaded partUrl partBytes etag]
  | completionFailed {locals sent e}
      (answer : completeNarUpload fmt (cache.request fmt (Upload.completeCall locals)) sent =
        .error e) :
      UploadStep (.completing locals) (.complete sent) (.returned locals.state (.error e)) []
  | completed {locals sent}
      (answer : completeNarUpload fmt (cache.request fmt (Upload.completeCall locals)) sent =
        .ok ()) :
      UploadStep (.completing locals) (.complete sent) (.returned locals.state (.ok ()))
        [.completed]

namespace Upload

variable {fmt cache}

/-- At the top of the loop the clock is looked at, and a URL is taken if there is one. -/
theorem takeUrl_spec (locals : Locals) (now : Duration) :
    UploadStep fmt cache (.top locals) (.clock now) (takeUrl locals now).1
      (takeUrl (E := E) locals now).2 := by
  unfold takeUrl
  dsimp only
  split
  · rename_i nothing
    -- the queue that is looked at is empty: either it was, or it has just been cleared
    refine .requestUrls fun usable => ?_
    rw [if_neg (Nat.not_le_of_lt usable.2)] at nothing
    exact usable.1 nothing
  · rename_i partUrl rest taken
    split at taken
    · cases taken
    · rename_i fresh
      exact .takeUrl taken (Nat.lt_of_not_le fresh)

/-- The batch that has been requested is there, or the upload has failed. -/
theorem receiveUrls_spec (locals : Locals) (sent : Sent E) :
    UploadStep fmt cache (.requestingUrls locals) (.partUrls sent)
      (receiveUrls fmt cache locals sent).1 (receiveUrls fmt cache locals sent).2 := by
  unfold receiveUrls
  split
  · rename_i e answer
    exact .urlsFailed answer
  · rename_i parts answer
    exact .receiveUrls answer

/-- A read of the NAR: it fails, it is pending, it comes to the end, or there are more bytes. -/
theorem fill_spec {locals : Locals} {partUrl : Url} {numRead : ℕ}
    {polled : Poll (Except E (List UInt8))} {upload : Upload E} {out : List UploadObs}
    (h : fill locals partUrl numRead polled = some (upload, out)) :
    UploadStep fmt cache (.filling locals partUrl numRead) (.read polled) upload out := by
  rcases polled with (e | (_ | ⟨b, data⟩)) | _
  · cases h
    exact .readFailed
  · cases h
    unfold filled
    split
    · rename_i empty
      subst empty
      exact .nothingLeft
    · rename_i nonempty
      exact .lastPart nonempty
  · simp only [fill, Option.ite_none_right_eq_some] at h
    obtain ⟨inside, h⟩ := h
    -- a poll delivers no more than there is room for, so the part is full or it is not
    have nonempty : b :: data ≠ [] := List.cons_ne_nil b data
    have length := length_overwrite inside
    rw [length] at h
    split at h
    · rename_i room
      cases h
      exact .readMore nonempty room
    · rename_i noRoom
      have full : numRead + (b :: data).length = locals.partBytesBuf.length :=
        Nat.le_antisymm inside (Nat.le_of_not_lt noRoom)
      have positive : numRead + (b :: data).length ≠ 0 := by simp
      cases h
      rw [filled, if_neg positive, List.take_of_length_le (Nat.le_of_eq (by rw [length, full]))]
      exact .fullPart nonempty full
  · cases h
    exact .pending

/-- A part has been answered: it was the last one, or the next one is prepared, or there is no
number for it. -/
theorem receiveEtag_spec (locals : Locals) (partUrl : Url) (partBytes : List UInt8)
    (sent : Sent E) (unique : Bool) :
    UploadStep fmt cache (.uploadingPart locals partUrl partBytes) (.part sent unique)
      (receiveEtag fmt cache locals partUrl partBytes sent unique).1
      (receiveEtag fmt cache locals partUrl partBytes sent unique).2 := by
  unfold receiveEtag
  split
  · rename_i e answer
    exact .partFailed answer
  · rename_i etag answer
    dsimp only
    split
    · rename_i short
      exact .allParts answer short
    · rename_i notShort
      split
      · rename_i largest
        exact .tooManyParts answer (Nat.le_of_not_lt notShort) largest
      · rename_i partNumber next
        exact .nextPart answer (Nat.le_of_not_lt notShort) (NonZero.checkedAdd_eq_some.mp next)

/-- The answer to the completion is the result of the upload. -/
theorem receiveCompletion_spec (locals : Locals) (sent : Sent E) :
    UploadStep fmt cache (.completing locals) (.complete sent)
      (receiveCompletion fmt cache locals sent).1 (receiveCompletion fmt cache locals sent).2 := by
  unfold receiveCompletion
  split
  · rename_i e answer
    exact .completionFailed answer
  · rename_i answer
    exact .completed answer

/-- **There is no other step.** -/
theorem step_spec {upload upload' : Upload E} {input : UploadInput E} {out : List UploadObs}
    (h : step fmt cache upload input = some (upload', out)) :
    UploadStep fmt cache upload input upload' out := by
  unfold step at h
  split at h
  · obtain ⟨rfl, rfl⟩ := Prod.ext_iff.mp (Option.some.inj h)
    exact takeUrl_spec _ _
  · obtain ⟨rfl, rfl⟩ := Prod.ext_iff.mp (Option.some.inj h)
    exact receiveUrls_spec _ _
  · exact fill_spec h
  · obtain ⟨rfl, rfl⟩ := Prod.ext_iff.mp (Option.some.inj h)
    exact receiveEtag_spec _ _ _ _ _
  · obtain ⟨rfl, rfl⟩ := Prod.ext_iff.mp (Option.some.inj h)
    exact receiveCompletion_spec _ _
  · cases h

end Upload

end Sub60

end CacheAction
