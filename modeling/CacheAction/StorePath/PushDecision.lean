import CacheAction.Foundations.Machine
import CacheAction.StorePath.ExistenceCheck
import Mathlib.Data.List.Perm.Basic

/-!
# The decision does not depend on who answers first

`should_push_store_path` waits for one answer of its own cache and for one answer
of each upstream cache.  Here all of them are given in advance, and the machine
`asked` lets them arrive in any order: an event is the own cache's answer, the
first poll of the upstream half, or the arrival of any upstream answer that is
still outstanding.  Returning early drops the rest.

`Awaits` relates the state of the check to the answers that have arrived.  It
gives the result in the end (`decision`), and a measure of what is still missing
(`Asked.remaining`) bounds every run, so that a check that can go no further has
returned.

What remains is the panic of the upstream half: `decision_order_free_iff` says
that the check is sound for a list of upstream caches exactly if all of them can
be a base.

The answers are given in advance because the claim compares orders: the *same* answers must
lead to the same decision however they arrive.  In the machine of the handler the answers come
with the inputs, and a server might answer differently when it is asked at another time; there
is nothing to compare then.  An order that drops an answer, because the check has returned
before it came, is one of the orders.
-/

namespace CacheAction

namespace HandleStorePath

open Sub60 UpstreamCaches

/-- What `should_push_store_path` is to return, given the answer of the own cache
and those of the upstream caches. -/
def decision {ε : Type} (own : Except ε Bool) (answers : List (Option StatusCode)) :
    Except ε Bool :=
  match own, decide (some 200 ∈ answers) with
  | .ok true, _ => .ok false
  | _, true => .ok false
  | .error e, false => .error e
  | .ok false, false => .ok true

section Decision

variable {ε : Type} {own : Except ε Bool} {answers : List (Option StatusCode)}

/-- An upstream cache that has the NARInfo settles the question, even if the own
cache fails. -/
theorem decision_of_found (found : some 200 ∈ answers) : decision own answers = .ok false := by
  rcases own with e | (_ | _) <;> simp [decision, found]

/-- Without one, it is the own cache that decides. -/
theorem decision_of_missing (missing : some 200 ∉ answers) :
    decision own answers = own.map (!·) := by
  rcases own with e | (_ | _) <;> simp [decision, missing, Except.map]

end Decision

/-! ## Arrivals -/

/-- What happens next. -/
inductive Arrival where
  | own
  /-- The upstream half is polled for the first time. -/
  | probe
  /-- One of the outstanding upstream answers arrives. -/
  | upstream (i : ℕ)

/-- The check and the upstream answers that have not arrived yet. -/
structure Asked (E : Type) where
  check : Check E
  outstanding : List (Option StatusCode)

variable {E : Type} (fmt : Formats E) (cache : Sub60Cache) (narinfoFilename : String)
  (upstreamCaches : List Url)

/-- `should_push_store_path`, with the answer `sent` of the own cache. -/
def asked (sent : Sent E) : Machine (Asked E) Arrival CheckObs where
  step s arrival :=
    let advance (input : CheckInput E) (outstanding : List (Option StatusCode)) :=
      (Check.step fmt cache narinfoFilename upstreamCaches s.check input).map
        fun next => (({ check := next.1, outstanding } : Asked E), next.2)
    match arrival with
    | .own => advance (.own sent) s.outstanding
    | .probe => advance .probe s.outstanding
    | .upstream i =>
        match s.outstanding[i]? with
        | none => none
        | some status => advance (.upstream status) (s.outstanding.eraseIdx i)

/-- The check before any answer. -/
def Asked.start (answers : List (Option StatusCode)) : Asked E :=
  { check := (Check.start narinfoFilename).1, outstanding := answers }

/-- The check returns the decision, whatever comes of the requests and whenever
their answers arrive. -/
structure OrderFree : Prop where
  /-- What is returned is the decision. -/
  decided : ∀ (sent : Sent E) answers, answers.length = upstreamCaches.length →
    ∀ arrivals s trace,
      (asked fmt cache narinfoFilename upstreamCaches sent).run
        (.start narinfoFilename answers) arrivals = some (s, trace) →
      ∀ push, s.check = .returned push →
        push = decision (Check.own fmt cache narinfoFilename sent) answers
  /-- It is returned: nothing panics, there is an end to the arrivals, and when
  none is left the check has returned. -/
  returns : ∀ (sent : Sent E) answers, answers.length = upstreamCaches.length →
    ∀ arrivals s trace,
      (asked fmt cache narinfoFilename upstreamCaches sent).run
        (.start narinfoFilename answers) arrivals = some (s, trace) →
      (∀ panic, s.check ≠ .panicked panic) ∧ arrivals.length ≤ answers.length + 2 ∧
        ((∀ arrival, (asked fmt cache narinfoFilename upstreamCaches sent).step s arrival = none) →
          ∃ push, s.check = .returned push)

/-! ## What has arrived -/

/-- The progress of the upstream half, against the answers outstanding: it has
not sent its requests, or it waits for them and none has been a success. -/
inductive Pending (answers outstanding : List (Option StatusCode)) : Upstream → Prop where
  | unpolled (all : outstanding = answers) : Pending answers outstanding .unpolled
  | waiting {pending} (length : pending = outstanding.length) (some_left : 0 < pending)
      (found : some 200 ∈ answers ↔ some 200 ∈ outstanding) :
      Pending answers outstanding (.waiting pending)

/-- The state of the check, against the answer of the own cache and those of the
upstream caches. -/
inductive Awaits (own : Except (CacheRequestError E) Bool)
    (answers outstanding : List (Option StatusCode)) : Check E → Prop where
  | selecting {upstream} (pending : Pending answers outstanding upstream) :
      Awaits own answers outstanding (.selecting upstream)
  | left {failure upstream} (pending : Pending answers outstanding upstream)
      (first : own = match failure with
        | none => .ok false
        | some e => .error e) :
      Awaits own answers outstanding (.left failure upstream)
  | right (missing : some 200 ∉ answers) : Awaits own answers outstanding .right
  | returned : Awaits own answers outstanding (.returned (decision own answers))

/-- The arrivals that the upstream half may still wait for, `expected` being the
number of its requests. -/
def upstreamRemaining (expected : ℕ) : Upstream → ℕ
  | .unpolled => expected + 1
  | .waiting pending => pending
  | .finished _ => 0

/-- The arrivals that the check may still wait for. -/
def checkRemaining (expected : ℕ) : Check E → ℕ
  | .selecting upstream => upstreamRemaining expected upstream + 1
  | .left _ upstream => upstreamRemaining expected upstream
  | .right => 1
  | .returned _ => 0
  | .panicked _ => 0

section Steps

variable {fmt cache narinfoFilename upstreamCaches}
  {own : Except (CacheRequestError E) Bool} {answers outstanding : List (Option StatusCode)}

/-- The requests are sent: without any, nothing is found. -/
theorem pending_sent {urls : List Url} (length : answers.length = urls.length) :
    Upstream.sent urls = .finished (decide (some 200 ∈ answers)) ∨
      Pending answers answers (.sent urls) := by
  rcases urls with _ | ⟨url, rest⟩
  · left
    obtain rfl := List.length_eq_zero_iff.mp length
    rfl
  · right
    rw [Upstream.sent, if_neg (by simp), ← length]
    exact .waiting rfl (by simp [length]) Iff.rfl

/-- One of the outstanding answers arrives: a success ends the upstream half, and
so does the last answer. -/
theorem Pending.next {pending i : ℕ} {status : Option StatusCode}
    (waits : Pending answers outstanding (.waiting pending))
    (arrived : outstanding[i]? = some status) :
    Upstream.next pending status = .finished (decide (some 200 ∈ answers)) ∨
      Pending answers (outstanding.eraseIdx i) (.next pending status) := by
  obtain _ | ⟨rfl, some_left, found⟩ := waits
  obtain ⟨valid, rfl⟩ := List.getElem?_eq_some_iff.mp arrived
  have taken : outstanding.Perm (outstanding[i] :: outstanding.eraseIdx i) :=
    (List.getElem_cons_eraseIdx_perm valid).symm
  unfold Upstream.next
  by_cases success : outstanding[i] = some 200
  · left
    have member : some 200 ∈ outstanding := success ▸ List.getElem_mem valid
    rw [if_pos success, decide_eq_true (found.mpr member)]
  · have rest : some 200 ∈ answers ↔ some 200 ∈ outstanding.eraseIdx i := by
      rw [found, taken.mem_iff, List.mem_cons, or_iff_right (Ne.symm success)]
    have length := List.length_eraseIdx_of_lt valid
    rw [if_neg success]
    split
    · left
      have none_left : outstanding.eraseIdx i = [] := by
        apply List.length_eq_zero_iff.mp
        omega
      rw [decide_eq_false (by simp [rest, none_left])]
    · right
      exact .waiting (by omega) (by omega) rest

theorem upstreamRemaining_next (expected pending : ℕ) (positive : 0 < pending)
    (status : Option StatusCode) :
    upstreamRemaining expected (.next pending status) < pending := by
  unfold Upstream.next
  split
  · exact positive
  · split
    · exact positive
    · exact Nat.sub_lt positive Nat.one_pos

/-- The upstream half inside one of the two states that wait for it: `waits` is
that state, and `resume` is what it does with the progress of the half. -/
structure Half (own : Except (CacheRequestError E) Bool) (answers : List (Option StatusCode))
    (waits resume : Upstream → Check E) : Prop where
  pending : ∀ {outstanding upstream}, Pending answers outstanding upstream →
    Awaits own answers outstanding (resume upstream)
  finished : ∀ outstanding, Awaits own answers outstanding
    (resume (.finished (decide (some 200 ∈ answers))))
  remaining : ∀ {expected before after},
    upstreamRemaining expected after < upstreamRemaining expected before →
    checkRemaining expected (resume after) < checkRemaining expected (waits before)

/-- While both halves are waited for. -/
theorem half_selecting : Half own answers Check.selecting Check.selectRight where
  pending := by
    rintro outstanding _ (all | ⟨length, some_left, found⟩)
    · exact .selecting (.unpolled all)
    · exact .selecting (.waiting length some_left found)
  finished := by
    intro outstanding
    by_cases found : some 200 ∈ answers
    · have skip : decision own answers = .ok false := decision_of_found found
      rw [decide_eq_true found, Check.selectRight, ← skip]
      exact .returned
    · rw [decide_eq_false found]
      exact .right found
  remaining := by
    rintro expected before (_ | pending | (_ | _)) less
    all_goals
      simp only [Check.selectRight, checkRemaining, upstreamRemaining] at less ⊢
      omega

/-- After the own cache has answered that it has no NARInfo, or has failed. -/
theorem half_left {failure : Option (CacheRequestError E)}
    (first : own = match failure with
      | none => .ok false
      | some e => .error e) : Half own answers (Check.left failure) (Check.afterLeft failure) where
  pending := by
    rintro outstanding _ (all | ⟨length, some_left, found⟩)
    · exact .left (.unpolled all) first
    · exact .left (.waiting length some_left found) first
  finished := by
    intro outstanding
    have returns : Check.afterLeft failure (.finished (decide (some 200 ∈ answers))) =
        .returned (decision own answers) := by
      rw [first]
      by_cases found : some 200 ∈ answers <;> rcases failure with _ | e <;>
        simp [Check.afterLeft, decision, found]
    rw [returns]
    exact .returned
  remaining := by
    rintro expected before (_ | pending | found) less
    · exact less
    · exact less
    · rcases failure with _ | e <;> rcases found with _ | _ <;> exact less

/-! ## One arrival -/

/-- What an arrival does: the check goes on, with less to wait for. -/
structure Advances (own : Except (CacheRequestError E) Bool) (answers : List (Option StatusCode))
    (s s' : Asked E) : Prop where
  awaits : Awaits own answers s'.outstanding s'.check
  less : checkRemaining answers.length s'.check < checkRemaining answers.length s.check

/-- The answer of the own cache, before the upstream half is done. -/
theorem advances_selectLeft {upstream : Upstream} (pending : Pending answers outstanding upstream) :
    Advances own answers ⟨.selecting upstream, outstanding⟩
      ⟨Check.selectLeft upstream own, outstanding⟩ := by
  rcases own with e | (_ | _)
  · exact ⟨.left pending rfl, Nat.lt_succ_self _⟩
  · exact ⟨.left pending rfl, Nat.lt_succ_self _⟩
  · exact ⟨.returned, Nat.succ_pos _⟩

/-- The first poll of the upstream half sends its requests. -/
theorem Half.probe {waits resume : Upstream → Check E} (half : Half own answers waits resume)
    (length : answers.length = upstreamCaches.length)
    (bases : ∀ url ∈ upstreamCaches, url.canBeABase) :
    Advances own answers ⟨waits .unpolled, answers⟩
      ⟨(Check.probe fmt narinfoFilename upstreamCaches resume).1, answers⟩ := by
  obtain ⟨urls, hurls⟩ :=
    (pushNarinfo_isOk fmt.encodeSegment narinfoFilename upstreamCaches).mpr bases
  have sent : answers.length = urls.length :=
    length.trans ((pushNarinfo_eq_ok fmt.encodeSegment).mp hurls).length_eq
  have goes_on : (Check.probe fmt narinfoFilename upstreamCaches resume).1 = resume (.sent urls) := by
    rw [Check.probe, hurls]
  rw [goes_on]
  refine ⟨?_, half.remaining ?_⟩
  · rcases pending_sent sent with finished | pending
    · rw [finished]
      exact half.finished _
    · exact half.pending pending
  · unfold Upstream.sent
    split
    · exact Nat.succ_pos _
    · rw [← sent]
      exact Nat.lt_succ_self _

/-- The answer of an upstream cache. -/
theorem Half.upstream {waits resume : Upstream → Check E} (half : Half own answers waits resume)
    {pending i : ℕ} {status : Option StatusCode}
    (waiting : Pending answers outstanding (.waiting pending))
    (arrived : outstanding[i]? = some status) :
    Advances own answers ⟨waits (.waiting pending), outstanding⟩
      ⟨resume (.next pending status), outstanding.eraseIdx i⟩ := by
  have positive : 0 < pending := by
    obtain _ | ⟨-, some_left, -⟩ := waiting
    exact some_left
  refine ⟨?_, half.remaining (upstreamRemaining_next _ _ positive _)⟩
  rcases waiting.next arrived with finished | pending
  · rw [finished]
    exact half.finished _
  · exact half.pending pending

variable (outstanding) in
/-- What arrives, and the answers that are outstanding afterwards. -/
inductive Arrives (sent : Sent E) : CheckInput E → List (Option StatusCode) → Prop where
  | own : Arrives sent (.own sent) outstanding
  | probe : Arrives sent .probe outstanding
  | upstream {i status} (arrived : outstanding[i]? = some status) :
      Arrives sent (.upstream status) (outstanding.eraseIdx i)

/-- An arrival is an input of the check. -/
theorem step_asked {sent : Sent E} {s s' : Asked E} {arrival : Arrival} {out : List CheckObs}
    (h : (asked fmt cache narinfoFilename upstreamCaches sent).step s arrival = some (s', out)) :
    ∃ input, Arrives s.outstanding sent input s'.outstanding ∧
      CheckStep fmt cache narinfoFilename upstreamCaches s.check input s'.check out := by
  unfold asked at h
  dsimp only at h
  cases arrival with
  | own =>
      obtain ⟨⟨check', out⟩, hstep, ⟨⟩⟩ := Option.map_eq_some_iff.mp h
      exact ⟨_, .own, Check.step_spec _ _ _ _ hstep⟩
  | probe =>
      obtain ⟨⟨check', out⟩, hstep, ⟨⟩⟩ := Option.map_eq_some_iff.mp h
      exact ⟨_, .probe, Check.step_spec _ _ _ _ hstep⟩
  | upstream i =>
      dsimp only at h
      split at h
      · cases h
      · rename_i status arrived
        obtain ⟨⟨check', out⟩, hstep, ⟨⟩⟩ := Option.map_eq_some_iff.mp h
        exact ⟨_, .upstream arrived, Check.step_spec _ _ _ _ hstep⟩

/-- Every arrival advances the check. -/
theorem Awaits.advances {sent : Sent E} {s s' : Asked E} {arrival : Arrival} {out : List CheckObs}
    (awaits : Awaits (Check.own fmt cache narinfoFilename sent) answers s.outstanding s.check)
    (length : answers.length = upstreamCaches.length)
    (bases : ∀ url ∈ upstreamCaches, url.canBeABase)
    (h : (asked fmt cache narinfoFilename upstreamCaches sent).step s arrival = some (s', out)) :
    Advances (Check.own fmt cache narinfoFilename sent) answers s s' := by
  obtain ⟨input, arrives, step⟩ := step_asked h
  obtain ⟨check, outstanding⟩ := s
  obtain ⟨check', outstanding'⟩ := s'
  dsimp only at awaits arrives step
  cases step with
  | ownFirst =>
      cases arrives with
      | own =>
          cases awaits with
          | selecting pending => exact advances_selectLeft pending
  | probeSelecting =>
      cases arrives with
      | probe =>
          cases awaits with
          | selecting pending =>
              obtain rfl | _ := pending
              exact half_selecting.probe length bases
  | upstreamSelecting =>
      cases arrives with
      | upstream arrived =>
          cases awaits with
          | selecting pending => exact half_selecting.upstream pending arrived
  | probeLeft =>
      cases arrives with
      | probe =>
          cases awaits with
          | left pending first =>
              obtain rfl | _ := pending
              exact (half_left first).probe length bases
  | upstreamLeft =>
      cases arrives with
      | upstream arrived =>
          cases awaits with
          | left pending first => exact (half_left first).upstream pending arrived
  | ownLast =>
      cases arrives with
      | own =>
          cases awaits with
          | right missing =>
              rw [← decision_of_missing missing]
              exact ⟨.returned, Nat.one_pos⟩

/-- A check that can go no further has returned. -/
theorem Awaits.returned_of_stuck {sent : Sent E} {s : Asked E}
    (awaits : Awaits own answers s.outstanding s.check)
    (stuck : ∀ arrival,
      (asked fmt cache narinfoFilename upstreamCaches sent).step s arrival = none) :
    s.check = .returned (decision own answers) := by
  obtain ⟨check, outstanding⟩ := s
  change Awaits own answers outstanding check at awaits
  cases awaits with
  | selecting pending => cases stuck .own
  | left pending first =>
      rcases pending with _ | ⟨rfl, some_left, -⟩
      · cases stuck .probe
      · have arrived := stuck (.upstream 0)
        simp only [asked, List.getElem?_eq_getElem some_left] at arrived
        cases arrived
  | right missing => cases stuck .own
  | returned => rfl

end Steps

/-- For upstream caches that can be a base, any arrivals lead to the decision. -/
theorem orderFree_of_bases (bases : ∀ url ∈ upstreamCaches, url.canBeABase) :
    OrderFree fmt cache narinfoFilename upstreamCaches := by
  have reached : ∀ (sent : Sent E) answers, answers.length = upstreamCaches.length →
      ∀ arrivals s trace,
      (asked fmt cache narinfoFilename upstreamCaches sent).run
        (.start narinfoFilename answers) arrivals = some (s, trace) →
      Awaits (Check.own fmt cache narinfoFilename sent) answers s.outstanding s.check ∧
        arrivals.length ≤ answers.length + 2 := by
    intro sent answers length arrivals s trace hrun
    obtain ⟨awaits, bound⟩ := Machine.run_bounded _
      (I := fun s => Awaits (Check.own fmt cache narinfoFilename sent) answers
        s.outstanding s.check)
      (f := fun s => checkRemaining answers.length s.check)
      (fun s arrival s' out awaits hstep =>
        let next := awaits.advances length bases hstep
        ⟨next.awaits, next.less⟩)
      (.selecting (.unpolled rfl)) hrun
    exact ⟨awaits, Nat.le_trans (Nat.le_add_right _ _) bound⟩
  refine ⟨?_, ?_⟩
  · intro sent answers length arrivals s trace hrun push returned
    have awaits := (reached sent answers length arrivals s trace hrun).1
    rw [returned] at awaits
    cases awaits
    rfl
  · intro sent answers length arrivals s trace hrun
    obtain ⟨awaits, bound⟩ := reached sent answers length arrivals s trace hrun
    refine ⟨?_, bound, fun stuck => ⟨_, awaits.returned_of_stuck stuck⟩⟩
    intro panic panicked
    rw [panicked] at awaits
    cases awaits

/-- The first poll of the upstream half panics on a URL that cannot be a base. -/
theorem not_orderFree_of_opaque {url : Url} (member : url ∈ upstreamCaches)
    (isOpaque : ¬ url.canBeABase) : ¬ OrderFree fmt cache narinfoFilename upstreamCaches := by
  intro orderFree
  have failed : ∃ panic, pushNarinfo fmt.encodeSegment narinfoFilename upstreamCaches =
      .error panic := by
    cases pushed : pushNarinfo fmt.encodeSegment narinfoFilename upstreamCaches with
    | error panic => exact ⟨panic, rfl⟩
    | ok probed =>
        have bases := (pushNarinfo_isOk fmt.encodeSegment narinfoFilename upstreamCaches).mp
          ⟨probed, pushed⟩
        exact absurd (bases url member) isOpaque
  obtain ⟨panic, hpanic⟩ := failed
  let sent : Sent E := .ok { status := 404, etag := none, text := .ok "" }
  have hrun : (asked fmt cache narinfoFilename upstreamCaches sent).run
      (.start narinfoFilename (upstreamCaches.map fun _ => none)) [.probe] =
        some (⟨.panicked panic, upstreamCaches.map fun _ => none⟩, []) := by
    simp [Machine.run, asked, Asked.start, Check.start, Check.step, Check.probe, hpanic]
  exact (orderFree.returns sent _ (by simp) _ _ _ hrun).1 panic rfl

/-- **The decision does not depend on who answers first** exactly when every
upstream cache can be a base.

`select` has its order in the code: which of the two futures is polled first, and what
is still awaited when one of them is ready.  For bases no order of the answers matters, also
where one of them is an error.  With a URL that is none, the check panics unless the cache
has said before that it has the file. -/
theorem decision_order_free_iff :
    OrderFree fmt cache narinfoFilename upstreamCaches ↔
      ∀ url ∈ upstreamCaches, url.canBeABase := by
  refine ⟨fun orderFree url member => ?_, orderFree_of_bases fmt cache narinfoFilename
    upstreamCaches⟩
  by_contra isOpaque
  exact not_orderFree_of_opaque fmt cache narinfoFilename upstreamCaches member isOpaque orderFree

/-- Formats under which no body can be parsed. -/
def textFormats : Formats Unit where
  encodeSegment := id
  appendPair url _ _ := url
  displayError _ := "error"
  parseEtag := .ok
  parseNarMultiparts _ := .error ()
  parseParts _ := .error ()
  printParts body := body.storeBasename
  printComplete body := body.storeBasename

/-- With `mailto:x` among the upstream caches, the check panics: it neither skips
the path nor pushes it. -/
theorem decision_panics_on_opaque :
    (asked textFormats
        { cacheUrl := { origin := "https://example.org", path := "/", suffix := "" } }
        "00000000000000000000000000000000.narinfo"
        [{ origin := "mailto:", path := .opaquePath "x", suffix := "" }]
        (.ok { status := 404, etag := none, text := .ok "" })).run
      (.start "00000000000000000000000000000000.narinfo" [some 200]) [.own, .probe] =
        some ({ check := .panicked { message := "upstream cache URL can be a base" },
                outstanding := [some 200] }, []) ∧
      ¬ OrderFree textFormats
        { cacheUrl := { origin := "https://example.org", path := "/", suffix := "" } }
        "00000000000000000000000000000000.narinfo"
        [{ origin := "mailto:", path := .opaquePath "x", suffix := "" }] := by
  refine ⟨rfl, not_orderFree_of_opaque _ _ _ _ (List.mem_singleton_self _) ?_⟩
  rintro ⟨path, ⟨⟩⟩

end HandleStorePath

end CacheAction
