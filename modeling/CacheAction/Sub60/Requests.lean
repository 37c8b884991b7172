import CacheAction.Foundations.NonZero
import CacheAction.Foundations.Url

/-!
# Requests to the cache server

Each operation of `Sub60Cache` sends one HTTP request and reads its answer.  A
`Call` is an operation with its arguments; `Sub60Cache.request` is the request
it sends, and there is one function for each operation that says what it makes
of the answer.

Traces hold calls, since a proof takes the arguments of an operation from there.
A server has no part in that: it gets a method, a URL and a body.  What is said
about a server is therefore read off the requests alone (`Request.part?`,
`Request.narinfo?`, `Request.readOnly`), and the lemmas on `request` lead from
one to the other.

The formats of the bodies are defined by another crate; they are parameters,
collected in `Formats`, and so is the type `E` of the errors of other crates.
-/

namespace CacheAction

namespace Sub60

/-- An entity tag. -/
abbrev Etag := String

/-- The identifier of a multipart upload. -/
abbrev UploadId := String

/-- The time since the UNIX epoch, in nanoseconds. -/
abbrev Duration := ℕ

/-- `Duration::from_secs`. -/
def fromSecs (secs : ℕ) : Duration := secs * 10 ^ 9

/-- `reqwest::Method`. -/
inductive Method where
  | get
  | head
  | post
  | put
  deriving DecidableEq, Repr

/-- The body of a request. -/
inductive Body where
  | empty
  | text (text : String)
  | bytes (bytes : List UInt8)
  deriving DecidableEq

/-- An HTTP request. -/
structure Request where
  method : Method
  url : Url
  body : Body
  deriving DecidableEq

namespace Request

/-- The server only has to read. -/
def readOnly (request : Request) : Bool :=
  match request.method with
  | .get => true
  | .head => true
  | _ => false

/-- The bytes that are put, and where.  Nothing but a part of a NAR is put as bytes. -/
def part? : Request → Option (Url × List UInt8)
  | { method := .put, url, body := .bytes bytes } => some (url, bytes)
  | _ => none

/-- The text that is put, and where.  Nothing but a NARInfo is put as a text. -/
def narinfo? : Request → Option (Url × String)
  | { method := .put, url, body := .text text } => some (url, text)
  | _ => none

/-- A request that only reads puts nothing. -/
theorem nothing_of_readOnly {request : Request} (reads : request.readOnly = true) :
    request.part? = none ∧ request.narinfo? = none := by
  obtain ⟨_ | _ | _ | _, url, body⟩ := request
  · exact ⟨rfl, rfl⟩
  · exact ⟨rfl, rfl⟩
  · cases reads
  · cases reads

end Request

/-- The parts that are put, in order. -/
def partsPut (requests : List Request) : List (Url × List UInt8) :=
  requests.filterMap Request.part?

/-- The bodies of the parts that are put, put together. -/
def bytesPut (requests : List Request) : List UInt8 :=
  ((partsPut requests).map Prod.snd).flatten

/-- The NARInfos that are put, in order. -/
def narinfosPut (requests : List Request) : List (Url × String) :=
  requests.filterMap Request.narinfo?

/-- An HTTP response: its status, its `ETag` header (whose conversion to a string
may fail) and its text (which may fail to arrive). -/
structure Response (E : Type) where
  status : StatusCode
  etag : Option (Except E String)
  text : Except E String

/-- What comes of sending a request. -/
abbrev Sent (E : Type) := Except E (Response E)

/-- `QuotedFromStrError`. -/
inductive QuotedFromStrError (E : Type) where
  | missingQuotes
  | inner (source : E)
  deriving DecidableEq, Repr

/-- `CacheRequestError`. -/
inductive CacheRequestError (E : Type) where
  | parseEtag (source : QuotedFromStrError E)
  | invalidResponseHeader (method : Method) (url : Url) (header : String) (source : E)
  | missingResponseHeader (method : Method) (url : Url) (header : String)
  | parseNarMultipartsResponseBody (source : E)
  | parsePartsResponseBody (source : E)
  | readNar (source : E)
  | httpRequest (method : Method) (source : E)
  | tooManyNarParts
  | unexpectedResponse (method : Method) (status : StatusCode) (url : Url) (body : String)
  deriving DecidableEq

/-- `NarMultipartsResponseBody`. -/
structure NarMultipartsResponseBody where
  partSize : NonZero 32
  partsUrls : List Url
  uploadId : UploadId
  expirationTs : Duration
  deriving DecidableEq

/-- `PartsRequestBody`. -/
structure PartsRequestBody where
  partNumbers : List (NonZero 16)
  storeBasename : String
  deriving DecidableEq

/-- `PartsResponseBody`. -/
structure PartsResponseBody where
  urls : List Url
  expirationTs : Duration
  deriving DecidableEq

/-- `CompleteRequestBody`. -/
structure CompleteRequestBody where
  etags : List Etag
  storeBasename : String
  deriving DecidableEq

/-- `NarUploadState`. -/
structure NarUploadState where
  partSize : NonZero 32
  partUrls : List Url
  storeBasename : String
  uploadId : UploadId
  urlsExpirationTs : Duration
  deriving DecidableEq

/-- The formats and printers of other crates. -/
structure Formats (E : Type) where
  encodeSegment : String → String
  appendPair : Url → String → String → Url
  displayError : E → String
  parseEtag : String → Except E Etag
  parseNarMultiparts : String → Except E NarMultipartsResponseBody
  parseParts : String → Except E PartsResponseBody
  printParts : PartsRequestBody → String
  printComplete : CompleteRequestBody → String

/-- An operation of the cache, with its arguments. -/
inductive Call where
  | hasNarinfo (narinfoFilename : String)
  | initiateNarUpload (storeBasename : String)
  | requestPartUrls (uploadId : UploadId) (partNumbers : List (NonZero 16))
      (storeBasename : String)
  | uploadPart (url : Url) (partBytes : List UInt8)
  | completeNarUpload (uploadId : UploadId) (etags : List Etag) (storeBasename : String)
  | uploadNarinfo (narinfoFilename : String) (narinfo : String) (uploadId : UploadId)
  deriving DecidableEq

namespace Call

/-- The operation does not change what the server stores or has in progress. -/
def readOnly : Call → Bool
  | .hasNarinfo _ => true
  | _ => false

/-- The operation is one of those that an upload calls. -/
def ofUpload : Call → Bool
  | .requestPartUrls _ _ _ => true
  | .uploadPart _ _ => true
  | .completeNarUpload _ _ _ => true
  | _ => false

/-- The part that the operation uploads. -/
def part? : Call → Option (Url × List UInt8)
  | .uploadPart url partBytes => some (url, partBytes)
  | _ => none

end Call

/-- `Sub60Cache`. -/
structure Sub60Cache where
  cacheUrl : BaseUrl

variable {E : Type} (fmt : Formats E)

namespace Sub60Cache

variable (cache : Sub60Cache)

/-- `narinfo_url`. -/
def narinfoUrl (narinfoFilename : String) : BaseUrl :=
  cache.cacheUrl.push fmt.encodeSegment narinfoFilename

/-- `narinfo_upload_url`. -/
def narinfoUploadUrl (narinfoFilename : String) (uploadId : UploadId) : Url :=
  fmt.appendPair (cache.narinfoUrl fmt narinfoFilename).toUrl "upload_id" uploadId

/-- `nar_multiparts_url`. -/
def narMultipartsUrl : BaseUrl :=
  cache.cacheUrl.push fmt.encodeSegment "nar-multiparts"

/-- `nar_multiparts_parts_url`. -/
def narMultipartsPartsUrl (uploadId : UploadId) : BaseUrl :=
  ((cache.narMultipartsUrl fmt).push fmt.encodeSegment uploadId).push fmt.encodeSegment "parts"

/-- `nar_multiparts_complete_url`. -/
def narMultipartsCompleteUrl (uploadId : UploadId) : BaseUrl :=
  ((cache.narMultipartsUrl fmt).push fmt.encodeSegment uploadId).push fmt.encodeSegment
    "complete"

/-- The request that an operation sends. -/
def request : Call → Request
  | .hasNarinfo narinfoFilename =>
      { method := .head, url := (cache.narinfoUrl fmt narinfoFilename).toUrl, body := .empty }
  | .initiateNarUpload storeBasename =>
      { method := .post, url := (cache.narMultipartsUrl fmt).toUrl, body := .text storeBasename }
  | .requestPartUrls uploadId partNumbers storeBasename =>
      { method := .post, url := (cache.narMultipartsPartsUrl fmt uploadId).toUrl,
        body := .text (fmt.printParts { partNumbers, storeBasename }) }
  | .uploadPart url partBytes => { method := .put, url, body := .bytes partBytes }
  | .completeNarUpload uploadId etags storeBasename =>
      { method := .post, url := (cache.narMultipartsCompleteUrl fmt uploadId).toUrl,
        body := .text (fmt.printComplete { etags, storeBasename }) }
  | .uploadNarinfo narinfoFilename narinfo uploadId =>
      { method := .put, url := cache.narinfoUploadUrl fmt narinfoFilename uploadId,
        body := .text narinfo }

@[simp] theorem request_readOnly (call : Call) :
    (cache.request fmt call).readOnly = call.readOnly := by
  cases call <;> rfl

/-- The only bytes put are those of `upload_part`, to its URL. -/
@[simp] theorem request_part? (call : Call) : (cache.request fmt call).part? = call.part? := by
  cases call <;> rfl

end Sub60Cache

/-! ## What the operations make of an answer -/

/-- `StatusCode::is_success`. -/
def isSuccess (status : StatusCode) : Bool :=
  200 ≤ status && status < 300

/-- `CacheRequestError::unexpected_response`. -/
def unexpectedResponse (response : Response E) (request : Request) : CacheRequestError E :=
  .unexpectedResponse request.method response.status request.url
    (match response.text with
      | .ok text => text
      | .error e => "<couldn't read response body: " ++ fmt.displayError e ++ ">")

/-- The response, if the request was sent and answered with a successful status. -/
def successful (request : Request) : Sent E → Except (CacheRequestError E) (Response E)
  | .error source => .error (.httpRequest request.method source)
  | .ok response =>
      if isSuccess response.status then .ok response
      else .error (unexpectedResponse fmt response request)

/-- The text of a successful response, parsed. -/
def parsed {β : Type} (parse : String → Except E β) (invalid : E → CacheRequestError E)
    (request : Request) (sent : Sent E) : Except (CacheRequestError E) β :=
  match successful fmt request sent with
  | .error e => .error e
  | .ok response =>
      match response.text with
      | .error source => .error (.httpRequest request.method source)
      | .ok text => (parse text).mapError invalid

/-- `has_narinfo`. -/
def hasNarinfo (request : Request) : Sent E → Except (CacheRequestError E) Bool
  | .error source => .error (.httpRequest request.method source)
  | .ok response =>
      if response.status = 200 then .ok true
      else if response.status = 404 then .ok false
      else .error (unexpectedResponse fmt response request)

/-- `initiate_nar_upload`. -/
def initiateNarUpload (storeBasename : String) (request : Request) (sent : Sent E) :
    Except (CacheRequestError E) NarUploadState :=
  (parsed fmt fmt.parseNarMultiparts .parseNarMultipartsResponseBody request sent).map
    fun body =>
      { partSize := body.partSize, partUrls := body.partsUrls, storeBasename,
        uploadId := body.uploadId, urlsExpirationTs := body.expirationTs }

/-- `request_part_urls`. -/
def requestPartUrls (request : Request) (sent : Sent E) :
    Except (CacheRequestError E) PartsResponseBody :=
  parsed fmt fmt.parseParts .parsePartsResponseBody request sent

/-- `Quoted::from_str`. -/
def parseQuoted (value : String) : Except (QuotedFromStrError E) Etag :=
  match value.toList with
  | '"' :: rest =>
      if rest.getLast? = some '"' then
        (fmt.parseEtag (String.ofList rest.dropLast)).mapError .inner
      else .error .missingQuotes
  | _ => .error .missingQuotes

/-- `upload_part`. -/
def uploadPart (request : Request) (sent : Sent E) : Except (CacheRequestError E) Etag :=
  match successful fmt request sent with
  | .error e => .error e
  | .ok response =>
      match response.etag with
      | none => .error (.missingResponseHeader request.method request.url "etag")
      | some (.error source) =>
          .error (.invalidResponseHeader request.method request.url "etag" source)
      | some (.ok value) => (parseQuoted fmt value).mapError .parseEtag

/-- `complete_nar_upload`. -/
def completeNarUpload (request : Request) (sent : Sent E) :
    Except (CacheRequestError E) Unit :=
  (successful fmt request sent).map fun _ => ()

/-- `upload_narinfo`, which returns the size of the printed NARInfo. -/
def uploadNarinfo (narinfo : String) (request : Request) (sent : Sent E) :
    Except (CacheRequestError E) ℕ :=
  (successful fmt request sent).map fun _ => narinfo.utf8ByteSize

/-! ## What an answer says

Whether an operation returns `Ok` is settled by the answer alone; the request only takes
part in the error.
-/

/-- There is an answer, and its status is successful. -/
def succeeded : Sent E → Bool
  | .error _ => false
  | .ok response => isSuccess response.status

/-- The entity tag of a successful answer. -/
def etag? : Sent E → Option Etag
  | .error _ => none
  | .ok response =>
      if isSuccess response.status then
        match response.etag with
        | some (.ok value) => (parseQuoted fmt value).toOption
        | _ => none
      else none

variable {fmt} {request : Request} {sent : Sent E}

/-- The answer to a part is `Ok` with the entity tag that it holds. -/
theorem uploadPart_eq_ok {etag : Etag} :
    uploadPart fmt request sent = .ok etag ↔ etag? fmt sent = some etag := by
  rcases sent with source | response
  · simp [uploadPart, successful, etag?]
  · by_cases success : isSuccess response.status = true
    · rcases header : response.etag with _ | (source | value)
      · simp [uploadPart, successful, etag?, success, header]
      · simp [uploadPart, successful, etag?, success, header]
      · rcases read : parseQuoted fmt value with e | tag <;>
          simp [uploadPart, successful, etag?, success, header, read, Except.mapError,
            Except.toOption]
    · simp [uploadPart, successful, etag?, success]

theorem uploadPart_eq_error {e : CacheRequestError E}
    (answer : uploadPart fmt request sent = .error e) : etag? fmt sent = none := by
  rw [Option.eq_none_iff_forall_ne_some]
  intro etag brings
  rw [uploadPart_eq_ok.mpr brings] at answer
  cases answer

theorem completeNarUpload_eq_ok :
    completeNarUpload fmt request sent = .ok () ↔ succeeded sent = true := by
  rcases sent with source | response
  · simp [completeNarUpload, successful, succeeded, Except.map]
  · by_cases success : isSuccess response.status = true <;>
      simp [completeNarUpload, successful, succeeded, success, Except.map]

/-- The size returned for a NARInfo is the size of its text. -/
theorem uploadNarinfo_eq_ok {narinfo : String} {size : ℕ} :
    uploadNarinfo fmt narinfo request sent = .ok size ↔
      succeeded sent = true ∧ size = narinfo.utf8ByteSize := by
  rcases sent with source | response
  · simp [uploadNarinfo, successful, succeeded, Except.map]
  · by_cases success : isSuccess response.status = true <;>
      simp [uploadNarinfo, successful, succeeded, success, Except.map, eq_comm]

end Sub60

end CacheAction
