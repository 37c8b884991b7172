import CacheAction.Sub60.Steps
import Mathlib.Data.Prod.Lex

/-!
# What an upload has left to do

With every step that is not a pending read an upload has less left to do (`Upload.load`),
in this order: the parts, then the turns of the loop for one part, and then the bytes that
the buffer has room for.  A turn that only requests URLs does not get the upload on, unless
these can be used.  `Timely` says that they can: a server hands out some, and the clock is
read before they expire.

The turns of the loop are what makes the order delicate.  From the top a turn leads either to
a part or to a request for URLs and back to the top, and the top after the request must count
for less than the top before it.  The two differ in the trace only: right after URLs have
been received (`justReceived`) the next turn takes one of them.  So the load of an upload is a
function of its state and of that bit.
-/

namespace CacheAction

namespace Sub60

variable {E : Type} (fmt : Formats E) (cache : Sub60Cache)

/-- The last thing that happened is that URLs were received. -/
def justReceived (trace : List UploadObs) : Bool :=
  match trace.getLast? with
  | some (.partUrls _ _) => true
  | _ => false

theorem justReceived_append (trace : List UploadObs) {out : List UploadObs} (some_out : out ≠ []) :
    justReceived (trace ++ out) = justReceived out := by
  unfold justReceived
  rw [List.getLast?_append_of_ne_nil _ some_out]

/-- URLs can be used when they have just been received.

The condition is on the server, for the batch (`partUrls`), and on the time that goes by
between the answer and the next turn (`clock`).  Of later turns nothing is assumed: if a URL
of the batch has expired by then, the rest of the batch is thrown away and a new one is
requested, which is a turn that gets nowhere but is paid for by the part that came before. -/
def Timely (upload : Upload E) (trace : List UploadObs) : UploadInput E → Prop
  | .clock now => ∀ locals, upload = .top locals → justReceived trace = true →
      now + fromSecs 10 < locals.state.urlsExpirationTs
  | .partUrls sent => ∀ locals, upload = .requestingUrls locals → ∀ parts,
      requestPartUrls fmt (cache.request fmt (Upload.partUrlsCall locals)) sent = .ok parts →
        parts.urls ≠ [] ∧ fromSecs 10 < parts.expirationTs
  | _ => True

/-- URLs that have just been received are there. -/
def Supplied (upload : Upload E) (trace : List UploadObs) : Prop :=
  ∀ locals, upload = .top locals → justReceived trace = true →
    locals.state.partUrls ≠ [] ∧ fromSecs 10 < locals.state.urlsExpirationTs

/-- What is left to do: the stage of the upload, the parts that can still come, the way
through the loop and the room in the buffer. -/
def Upload.load (received : Bool) : Upload E → ℕ ×ₗ ℕ ×ₗ ℕ ×ₗ ℕ
  | .top locals =>
      toLex (2, toLex (2 ^ 16 - locals.partNumber.val, toLex (if received then 2 else 4, 0)))
  | .requestingUrls locals =>
      toLex (2, toLex (2 ^ 16 - locals.partNumber.val, toLex (3, 0)))
  | .filling locals _ numRead =>
      toLex (2, toLex (2 ^ 16 - locals.partNumber.val,
        toLex (1, locals.partBytesBuf.length - numRead)))
  | .uploadingPart locals _ _ =>
      toLex (2, toLex (2 ^ 16 - locals.partNumber.val, toLex (0, 0)))
  | .completing _ => toLex (1, toLex (0, toLex (0, 0)))
  | .returned _ _ => toLex (0, toLex (0, toLex (0, 0)))

section Steps

variable {fmt cache} {upload upload' : Upload E} {input : UploadInput E}
  {trace out : List UploadObs}

/-- A step changes the upload, but for a read that is pending. -/
theorem UploadStep.changed (step : UploadStep fmt cache upload input upload' out)
    (unpending : input ≠ .read .pending) : upload' ≠ upload := by
  cases step with
  | pending => exact absurd rfl unpending
  | @readMore locals partUrl numRead chunk nonempty room =>
      have bytes := List.length_pos_iff.mpr nonempty
      intro same
      injection same
      omega
  | _ => rintro ⟨⟩

/-- **Every step leaves less to do**, but for a read that is pending. -/
theorem UploadStep.load_lt (step : UploadStep fmt cache upload input upload' out)
    (supplied : Supplied upload trace) (timely : Timely fmt cache upload trace input) :
    (upload' = upload ∧ out = [] ∧ input = .read .pending) ∨
      upload'.load (justReceived (trace ++ out)) < upload.load (justReceived trace) := by
  cases step with
  | pending => exact .inl ⟨rfl, rfl, rfl⟩
  | @requestUrls locals now unusable =>
      refine .inr ?_
      have unreceived : justReceived trace = false := by
        by_contra received
        rw [Bool.not_eq_false] at received
        exact unusable ⟨(supplied locals rfl received).1, timely locals rfl received⟩
      simp only [Upload.load, Prod.Lex.toLex_lt_toLex, Locals.withPartUrls, unreceived]
      simp
  | takeUrl urls fresh =>
      refine .inr ?_
      simp only [Upload.load, Prod.Lex.toLex_lt_toLex, Locals.withPartUrls]
      split <;> simp
  | receiveUrls answer =>
      refine .inr ?_
      rw [justReceived_append trace (by simp)]
      simp [Upload.load, Prod.Lex.toLex_lt_toLex, justReceived]
  | @readMore locals partUrl numRead chunk nonempty room =>
      refine .inr ?_
      have bytes := List.length_pos_iff.mpr nonempty
      have same : (overwrite locals.partBytesBuf numRead chunk).length =
          locals.partBytesBuf.length := length_overwrite (Nat.le_of_lt room)
      simp only [Upload.load, Prod.Lex.toLex_lt_toLex, Locals.receive, same]
      simp
      omega
  | @nextPart locals partUrl partBytes sent unique etag partNumber answer full next =>
      refine .inr ?_
      have bound := partNumber.lt
      have fewer : 2 ^ 16 - partNumber.val < 2 ^ 16 - locals.partNumber.val := by omega
      simp only [Upload.load, Prod.Lex.toLex_lt_toLex]
      exact .inr ⟨trivial, .inl fewer⟩
  | _ => exact .inr (by simp [Upload.load, Prod.Lex.toLex_lt_toLex, Locals.receive])

/-- URLs that are received are there. -/
theorem UploadStep.supplied (step : UploadStep fmt cache upload input upload' out)
    (supplied : Supplied upload trace) (timely : Timely fmt cache upload trace input) :
    Supplied upload' (trace ++ out) := by
  intro locals' top received
  cases step with
  | @receiveUrls locals sent parts answer =>
      obtain ⟨urls, fresh⟩ := timely locals rfl parts answer
      cases top
      exact ⟨by simp [urls], fresh⟩
  | nextPart answer full next =>
      rw [justReceived_append trace (by simp)] at received
      cases received
  | _ => cases top

end Steps

end Sub60

end CacheAction
