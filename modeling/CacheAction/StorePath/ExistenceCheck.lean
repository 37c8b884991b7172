import CacheAction.StorePath.UpstreamCaches
import CacheAction.Sub60.Requests

/-!
# Deciding whether to push a store path

`should_push_store_path` as a machine.  It races the cache's own answer against
the upstream caches (`future::select`), and goes on with the half that is left
when the first answer does not settle the question.

The half that asks the upstream caches starts when it is polled for the first
time: that is where the URLs are built, where it may panic, and where the
requests are sent.

### Which half is polled

`select` polls the cache's half first, and the other one if that is pending.  Once one of them
is ready the other is handed back in whatever state it is, possibly not polled at all: the
answer of the cache may be there before any upstream cache has been asked.  This is the
state `unpolled`, and the reason for an input `probe` of its own.  The requests are made all at
once and answered in any order (`FuturesUnordered`), so that of their answers only the number
of those outstanding is kept; the first positive one drops the others.
-/

namespace CacheAction

namespace HandleStorePath

open Sub60 UpstreamCaches

/-- The progress of `upstream_caches_have_narinfo`. -/
inductive Upstream where
  /-- Not polled yet. -/
  | unpolled
  /-- Waiting for `pending` requests. -/
  | waiting (pending : ℕ)
  | finished (hasNarinfo : Bool)
  deriving DecidableEq

namespace Upstream

/-- The requests are under way; without any, there is nothing to wait for. -/
def sent (requests : List Url) : Upstream :=
  if requests = [] then .finished false else .waiting requests.length

/-- One of `pending` requests completes; a failed request has no status. -/
def next (pending : ℕ) (status : Option StatusCode) : Upstream :=
  if status = some 200 then .finished true
  else if pending ≤ 1 then .finished false
  else .waiting (pending - 1)

end Upstream

/-- Where `should_push_store_path` is. -/
inductive Check (E : Type) where
  /-- In `future::select`. -/
  | selecting (upstream : Upstream)
  /-- The own cache was first: it has no NARInfo, or its answer is an error. -/
  | left (failure : Option (CacheRequestError E)) (upstream : Upstream)
  /-- No upstream cache has the NARInfo; the own cache has not answered. -/
  | right
  | returned (push : Except (CacheRequestError E) Bool)
  | panicked (panic : Panic)
  deriving DecidableEq

/-- What `should_push_store_path` waits for. -/
inductive CheckInput (E : Type) where
  | own (sent : Sent E)
  /-- The upstream half is polled for the first time. -/
  | probe
  | upstream (status : Option StatusCode)

/-- The requests it sends. -/
inductive CheckObs where
  | called (call : Call)
  | get (url : Url)
  deriving DecidableEq

variable {E : Type} (fmt : Formats E) (cache : Sub60Cache) (narinfoFilename : String)
  (upstreamCaches : List Url)

namespace Check

/-- `should_push_store_path` when it is first polled. -/
def start : Check E × List CheckObs :=
  (.selecting .unpolled, [.called (.hasNarinfo narinfoFilename)])

/-- The answer of the own cache. -/
def own (sent : Sent E) : Except (CacheRequestError E) Bool :=
  hasNarinfo fmt (cache.request fmt (.hasNarinfo narinfoFilename)) sent

/-- `Either::Left`, with what remains of the other half. -/
def selectLeft (upstream : Upstream) : Except (CacheRequestError E) Bool → Check E
  | .ok true => .returned (.ok false)
  | .ok false => .left none upstream
  | .error e => .left (some e) upstream

/-- The upstream half, while both are waited for. -/
def selectRight : Upstream → Check E
  | .finished true => .returned (.ok false)
  | .finished false => .right
  | upstream => .selecting upstream

/-- The upstream half, after the own cache. -/
def afterLeft (failure : Option (CacheRequestError E)) : Upstream → Check E
  | .finished found =>
      match failure with
      | none => .returned (.ok (!found))
      | some e => if found then .returned (.ok false) else .returned (.error e)
  | upstream => .left failure upstream

/-- The first poll of the upstream half, after which it goes on as `resume` says. -/
def probe (resume : Upstream → Check E) : Check E × List CheckObs :=
  match pushNarinfo fmt.encodeSegment narinfoFilename upstreamCaches with
  | .error panic => (.panicked panic, [])
  | .ok urls => (resume (.sent urls), urls.map .get)

/-- One step. -/
def step (check : Check E) (input : CheckInput E) : Option (Check E × List CheckObs) :=
  match check, input with
  | .selecting upstream, .own sent =>
      some (selectLeft upstream (own fmt cache narinfoFilename sent), [])
  -- the first poll of the upstream half, whichever half answers first
  | .selecting .unpolled, .probe =>
      some (probe fmt narinfoFilename upstreamCaches selectRight)
  | .selecting (.waiting pending), .upstream status =>
      some (selectRight (.next pending status), [])
  | .left failure .unpolled, .probe =>
      some (probe fmt narinfoFilename upstreamCaches (afterLeft failure))
  | .left failure (.waiting pending), .upstream status =>
      some (afterLeft failure (.next pending status), [])
  | .right, .own sent =>
      some (.returned ((own fmt cache narinfoFilename sent).map (!·)), [])
  | _, _ => none

end Check

/-- Everything that a step can do. -/
inductive CheckStep : Check E → CheckInput E → Check E → List CheckObs → Prop where
  | ownFirst {upstream sent} :
      CheckStep (.selecting upstream) (.own sent)
        (.selectLeft upstream (Check.own fmt cache narinfoFilename sent)) []
  | probeSelecting :
      CheckStep (.selecting .unpolled) .probe
        (Check.probe fmt narinfoFilename upstreamCaches .selectRight).1
        (Check.probe (E := E) fmt narinfoFilename upstreamCaches .selectRight).2
  | upstreamSelecting {pending status} :
      CheckStep (.selecting (.waiting pending)) (.upstream status)
        (.selectRight (.next pending status)) []
  | probeLeft {failure} :
      CheckStep (.left failure .unpolled) .probe
        (Check.probe fmt narinfoFilename upstreamCaches (.afterLeft failure)).1
        (Check.probe fmt narinfoFilename upstreamCaches (.afterLeft failure)).2
  | upstreamLeft {failure pending status} :
      CheckStep (.left failure (.waiting pending)) (.upstream status)
        (.afterLeft failure (.next pending status)) []
  | ownLast {sent} :
      CheckStep .right (.own sent)
        (.returned ((Check.own fmt cache narinfoFilename sent).map (!·))) []

/-- There is no other step. -/
theorem Check.step_spec {check check' : Check E} {input : CheckInput E} {out : List CheckObs}
    (h : Check.step fmt cache narinfoFilename upstreamCaches check input = some (check', out)) :
    CheckStep fmt cache narinfoFilename upstreamCaches check input check' out := by
  unfold Check.step at h
  split at h
  · cases h
    exact .ownFirst
  · obtain ⟨rfl, rfl⟩ := Prod.ext_iff.mp (Option.some.inj h)
    exact .probeSelecting
  · cases h
    exact .upstreamSelecting
  · obtain ⟨rfl, rfl⟩ := Prod.ext_iff.mp (Option.some.inj h)
    exact .probeLeft
  · cases h
    exact .upstreamLeft
  · cases h
    exact .ownLast
  · cases h

/-! ## What it sends -/

/-- The request that is sent.  Those to the upstream caches have no body. -/
def CheckObs.request : CheckObs → Request
  | .called call => cache.request fmt call
  | .get url => { method := .get, url, body := .empty }

/-- The request only reads. -/
def CheckObs.readOnly : CheckObs → Bool
  | .called call => call.readOnly
  | .get _ => true

@[simp] theorem CheckObs.request_readOnly (o : CheckObs) :
    (o.request fmt cache).readOnly = o.readOnly := by
  rcases o with call | url
  · exact cache.request_readOnly fmt call
  · rfl

/-- **The check sends nothing but requests that read.** -/
theorem Check.step_readOnly {check check' : Check E} {input : CheckInput E} {out : List CheckObs}
    (h : Check.step fmt cache narinfoFilename upstreamCaches check input = some (check', out)) :
    ∀ o ∈ out, o.readOnly = true := by
  have probed : ∀ resume : Upstream → Check E,
      ∀ o ∈ (Check.probe fmt narinfoFilename upstreamCaches resume).2, o.readOnly = true := by
    intro resume o member
    unfold Check.probe at member
    split at member
    · cases member
    · obtain ⟨url, -, rfl⟩ := List.mem_map.mp member
      rfl
  cases Check.step_spec fmt cache narinfoFilename upstreamCaches h with
  | probeSelecting => exact probed _
  | probeLeft => exact probed _
  | _ => exact fun o member => absurd member List.not_mem_nil

end HandleStorePath

end CacheAction
