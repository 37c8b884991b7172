import CacheAction.Foundations.Buffer
import CacheAction.Foundations.Machine
import CacheAction.Foundations.Polled
import CacheAction.Sub60.Requests

/-!
# Uploading a NAR in parts

`upload_nar` as a machine.  It advances at the points where the program waits
for something else: the clock, the answer to a request, a poll of the reader.
What it gets there is the input; its outputs are the requests it sends and what
it has learned from the answers and the reader.

One turn of its loop discards expired URLs, takes the next URL or requests new
ones, fills the buffer from the reader and uploads what it holds.

### Where the machine stops

The source is one `async fn`; everything between two of its waits is one step here.  So a
state is a wait, together with the local variables that live across it, and nothing of the
environment is part of it: a theorem about all inputs is a theorem about every clock, every
reader, every server and every schedule at once.

* The clock is read once a turn, at the top, and not again before the part is put.  That
  the reader may take any time in between is what `CacheAction.Sub60.Expiry` is about.
* `try_fill` is unrolled to its polls, since its caller can be scheduled between any two of
  them (the other half of `try_join` runs then).
* `Bytes::try_into_mut` gives the buffer back or does not, depending on whether the HTTP
  client still holds the body.  We cannot know, so it is an input (`unique`).

The outputs carry more than the requests: what was read, which answer was an entity tag.
These are the facts that the proofs speak of (`UploadLog`); nothing in `step` looks at them.
-/

namespace CacheAction

namespace Sub60

/-- The local variables of `upload_nar`.  `partBytesBuf` is the whole buffer, of
`part_size` bytes as long as it is being filled; `part_size` itself is `state.partSize`, which
nothing changes. -/
structure Locals where
  state : NarUploadState
  partNumber : NonZero 16
  etags : List Etag
  partBytesBuf : List UInt8
  deriving DecidableEq

/-- Where `upload_nar` is. -/
inductive Upload (E : Type) where
  /-- At the top of the loop. -/
  | top (locals : Locals)
  /-- Waiting for `request_part_urls`. -/
  | requestingUrls (locals : Locals)
  /-- In `try_fill`, having read `numRead` bytes. -/
  | filling (locals : Locals) (partUrl : Url) (numRead : ℕ)
  /-- Waiting for `upload_part`. -/
  | uploadingPart (locals : Locals) (partUrl : Url) (partBytes : List UInt8)
  /-- Waiting for `complete_nar_upload`. -/
  | completing (locals : Locals)
  /-- Returned, leaving its state to the caller. -/
  | returned (state : NarUploadState) (result : Except (CacheRequestError E) Unit)
  deriving DecidableEq

/-- What `upload_nar` waits for.  With the answer to an upload comes whether the
request has let go of the buffer. -/
inductive UploadInput (E : Type) where
  | clock (now : Duration)
  | partUrls (sent : Sent E)
  | read (polled : Poll (Except E (List UInt8)))
  | part (sent : Sent E) (unique : Bool)
  | complete (sent : Sent E)

/-- What `upload_nar` does and learns. -/
inductive UploadObs where
  | called (call : Call)
  | partUrls (partNumbers : List (NonZero 16)) (urls : List Url)
  | read (bytes : List UInt8)
  | eof
  | readFailed
  | uploaded (partUrl : Url) (partBytes : List UInt8) (etag : Etag)
  | partFailed
  | completed
  deriving DecidableEq

variable {E : Type} (fmt : Formats E) (cache : Sub60Cache)

/-- The numbers of the parts whose URLs are requested: the first four, or as
many as there are, from `partNumber` on. -/
def newPartNumbers (partNumber : NonZero 16) : List (NonZero 16) :=
  go 4 (some partNumber)
where
  /-- `iter::successors(..).take(n)`. -/
  go : ℕ → Option (NonZero 16) → List (NonZero 16)
    | 0, _ => []
    | _ + 1, none => []
    | n + 1, some number => number :: go n (number.checkedAdd 1)

namespace Upload

/-- The call for the URLs of the next parts. -/
def partUrlsCall (locals : Locals) : Call :=
  .requestPartUrls locals.state.uploadId (newPartNumbers locals.partNumber)
    locals.state.storeBasename

/-- The call that completes the upload. -/
def completeCall (locals : Locals) : Call :=
  .completeNarUpload locals.state.uploadId locals.etags locals.state.storeBasename

/-- Leave the loop. -/
def complete (locals : Locals) : Upload E × List UploadObs :=
  (.completing locals, [.called (completeCall locals)])

/-- The first half of a turn, at time `now`.  The URLs are cleared when they are about to
expire, and a turn without a URL ends with the request for more of them: `continue` leads
back to the top, where the clock is read again. -/
def takeUrl (locals : Locals) (now : Duration) : Upload E × List UploadObs :=
  let urls :=
    if now + fromSecs 10 ≥ locals.state.urlsExpirationTs then [] else locals.state.partUrls
  match urls with
  | [] =>
      let locals := { locals with state := { locals.state with partUrls := [] } }
      (.requestingUrls locals, [.called (partUrlsCall locals)])
  | partUrl :: rest =>
      (.filling { locals with state := { locals.state with partUrls := rest } } partUrl 0, [])

/-- The answer of `request_part_urls`.  The URLs are appended to those that are left, which
are none (a turn only asks when there is none), and *their* expiration becomes the one of
all. -/
def receiveUrls (locals : Locals) (sent : Sent E) : Upload E × List UploadObs :=
  match requestPartUrls fmt (cache.request fmt (partUrlsCall locals)) sent with
  | .error e => (.returned locals.state (.error e), [])
  | .ok parts =>
      (.top { locals with
        state := { locals.state with
          partUrls := locals.state.partUrls ++ parts.urls
          urlsExpirationTs := parts.expirationTs } },
        [.partUrls (newPartNumbers locals.partNumber) parts.urls])

/-- The buffer holds `numRead` bytes and will get no more.  Nothing read means that the NAR
ended exactly with the last part, or that it is empty: no part is put for it, and the URL that
was taken is lost. -/
def filled (locals : Locals) (partUrl : Url) (numRead : ℕ) : Upload E × List UploadObs :=
  if numRead = 0 then complete locals
  else
    let partBytes := locals.partBytesBuf.take numRead
    (.uploadingPart locals partUrl partBytes, [.called (.uploadPart partUrl partBytes)])

/-- One turn of the loop of `TryFill::poll`.  A poll delivers at most as many
bytes as there is room for. -/
def fill (locals : Locals) (partUrl : Url) (numRead : ℕ) :
    Poll (Except E (List UInt8)) → Option (Upload E × List UploadObs)
  | .pending => some (.filling locals partUrl numRead, [])
  | .ready (.error e) => some (.returned locals.state (.error (.readNar e)), [.readFailed])
  | .ready (.ok []) =>
      let next := filled locals partUrl numRead
      some (next.1, .eof :: next.2)
  | .ready (.ok (b :: data)) =>
      if numRead + (b :: data).length ≤ locals.partBytesBuf.length then
        let locals := { locals with
          partBytesBuf := overwrite locals.partBytesBuf numRead (b :: data) }
        let numRead := numRead + (b :: data).length
        if numRead < locals.partBytesBuf.length then
          some (.filling locals partUrl numRead, [.read (b :: data)])
        else
          let next := filled locals partUrl numRead
          some (next.1, .read (b :: data) :: next.2)
      else none

/-- The answer of `upload_part`.  A part that is not full is the last one; after a full one
the loop goes on, unless there is no number for another part.  That is decided before it is
known whether there are more bytes, so that 65535 full parts are refused even if they are the
whole NAR (`CacheAction.Sub60.PartLimit`). -/
def receiveEtag (locals : Locals) (partUrl : Url) (partBytes : List UInt8) (sent : Sent E)
    (unique : Bool) : Upload E × List UploadObs :=
  match uploadPart fmt (cache.request fmt (.uploadPart partUrl partBytes)) sent with
  | .error e => (.returned locals.state (.error e), [.partFailed])
  | .ok etag =>
      let locals := { locals with etags := locals.etags ++ [etag] }
      if partBytes.length < locals.state.partSize.val then
        let next := complete locals
        (next.1, .uploaded partUrl partBytes etag :: next.2)
      else
        match locals.partNumber.checkedAdd 1 with
        | none => (.returned locals.state (.error .tooManyNarParts), [.uploaded partUrl partBytes etag])
        | some partNumber =>
            (.top { locals with
              partNumber
              -- the buffer is taken back, unless the request still holds it
              partBytesBuf :=
                if unique then partBytes else List.replicate locals.state.partSize.val 0 },
              [.uploaded partUrl partBytes etag])

/-- The answer of `complete_nar_upload`. -/
def receiveCompletion (locals : Locals) (sent : Sent E) : Upload E × List UploadObs :=
  match completeNarUpload fmt (cache.request fmt (completeCall locals)) sent with
  | .error e => (.returned locals.state (.error e), [])
  | .ok () => (.returned locals.state (.ok ()), [.completed])

/-- One step. -/
def step (upload : Upload E) (input : UploadInput E) : Option (Upload E × List UploadObs) :=
  match upload, input with
  | .top locals, .clock now => some (takeUrl locals now)
  | .requestingUrls locals, .partUrls sent => some (receiveUrls fmt cache locals sent)
  | .filling locals partUrl numRead, .read polled => fill locals partUrl numRead polled
  | .uploadingPart locals partUrl partBytes, .part sent unique =>
      some (receiveEtag fmt cache locals partUrl partBytes sent unique)
  | .completing locals, .complete sent => some (receiveCompletion fmt cache locals sent)
  | _, _ => none

/-- `upload_nar` when it is called. -/
def start (state : NarUploadState) : Upload E :=
  .top { state, partNumber := ⟨1, by decide, by decide⟩, etags := [],
         partBytesBuf := List.replicate state.partSize.val 0 }

end Upload

/-- `upload_nar`, against any environment. -/
def uploadMachine : Machine (Upload E) (UploadInput E) UploadObs where
  step := Upload.step fmt cache

end Sub60

end CacheAction
