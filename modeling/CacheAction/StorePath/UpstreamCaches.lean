import CacheAction.Foundations.Url
import Mathlib.Data.List.Forall2

/-!
# Upstream caches

The list of upstream caches is parsed once, from the arguments
(`parseUpstreamCaches`), and used for every store path: the name of its NARInfo
file is pushed onto the path of each URL, which is then requested
(`upstreamCachesHaveNarinfo`).

The parser accepts every absolute URL, and pushing a path segment panics on
those that cannot be a base.  The parser of single URLs is a parameter.

A panic is an error of the model, with the message of the `expect`, and not a result of the
function: it leaves `handle_store_path` through no `?`, and what becomes of it is decided by
whoever waits for the task (`CacheAction.Daemon.Model`).  The URLs are pushed onto one after the
other before the first of them is requested, so that one URL without a path keeps all the
others from being asked.
-/

namespace CacheAction

universe u

/-- A panic, with the message of the `expect` that raised it. -/
structure Panic where
  message : String
  deriving DecidableEq, Repr

namespace UpstreamCaches

section Parsing

variable {ε : Type u} (parse : String → Except ε Url)

/-- The non-empty items of the comma-separated list. -/
def items (value : String) : List String :=
  ((value.toList.splitOn ',').filter (fun item => !item.isEmpty)).map String.ofList

/-- Parse the items one after the other, up to the first error. -/
def collect : List String → Except ε (List Url)
  | [] => .ok []
  | item :: rest =>
      match parse item with
      | .error e => .error e
      | .ok url =>
          match collect rest with
          | .error e => .error e
          | .ok urls => .ok (url :: urls)

/-- `parse_upstream_caches`. -/
def parseUpstreamCaches (value : String) : Except ε (List Url) :=
  collect parse (items value)

/-- Parsing succeeds when every item parses, in order. -/
theorem collect_eq_ok {strings : List String} {urls : List Url} :
    collect parse strings = .ok urls ↔
      List.Forall₂ (fun item url => parse item = .ok url) strings urls := by
  induction strings generalizing urls with
  | nil => simp [collect, eq_comm]
  | cons item rest ih =>
      unfold collect
      constructor
      · intro h
        split at h
        · cases h
        · rename_i url first
          split at h
          · cases h
          · rename_i others parsed
            cases h
            exact .cons first (ih.mp parsed)
      · rintro (_ | ⟨first, others⟩)
        rw [first, ih.mpr others]

/-- What holds of every parsed URL holds of whatever the items parse to. -/
theorem forall_parsed {strings : List String} {urls : List Url} {p : Url → Prop}
    (parsed : List.Forall₂ (fun item url => parse item = .ok url) strings urls) :
    (∀ url ∈ urls, p url) ↔ ∀ item ∈ strings, ∀ url, parse item = .ok url → p url := by
  induction parsed with
  | nil => simp
  | cons first others ih =>
      rw [List.forall_mem_cons, List.forall_mem_cons, ih]
      refine and_congr_left fun _ => ⟨fun holds url ok => ?_, fun holds => holds _ first⟩
      obtain rfl := Except.ok.inj (first.symm.trans ok)
      exact holds

end Parsing

section Probing

variable (encode : String → String)

/-- Push the name of the NARInfo file onto the path of every upstream URL. -/
def pushNarinfo (narinfoFilename : String) : List Url → Except Panic (List Url)
  | [] => .ok []
  | url :: rest =>
      match url.pushSegment encode narinfoFilename with
      | none => .error { message := "upstream cache URL can be a base" }
      | some probed =>
          match pushNarinfo narinfoFilename rest with
          | .error panic => .error panic
          | .ok others => .ok (probed :: others)

/-- `while let Some(has_narinfo) = requests.next().await`, the answers being in
the order in which the requests complete; a failed request has no status. -/
def anyOk : List (Option StatusCode) → Bool
  | [] => false
  | answer :: rest => if answer = some 200 then true else anyOk rest

/-- `upstream_caches_have_narinfo`. -/
def upstreamCachesHaveNarinfo (narinfoFilename : String) (upstreamCaches : List Url)
    (answers : List (Option StatusCode)) : Except Panic Bool :=
  match pushNarinfo encode narinfoFilename upstreamCaches with
  | .error panic => .error panic
  | .ok _ => .ok (anyOk answers)

/-- What is pushed: each URL on its own, in the order of the list. -/
theorem pushNarinfo_eq_ok {narinfoFilename : String} {urls probed : List Url} :
    pushNarinfo encode narinfoFilename urls = .ok probed ↔
      List.Forall₂ (fun url probe => url.pushSegment encode narinfoFilename = some probe)
        urls probed := by
  induction urls generalizing probed with
  | nil => simp [pushNarinfo, eq_comm]
  | cons url rest ih =>
      unfold pushNarinfo
      constructor
      · intro h
        split at h
        · cases h
        · rename_i probe first
          split at h
          · cases h
          · rename_i others pushed
            cases h
            exact .cons first (ih.mp pushed)
      · rintro (_ | ⟨first, others⟩)
        rw [first, ih.mpr others]

/-- The segments can be pushed exactly when every URL can be a base. -/
theorem pushNarinfo_isOk (narinfoFilename : String) (urls : List Url) :
    (∃ probed, pushNarinfo encode narinfoFilename urls = .ok probed) ↔
      ∀ url ∈ urls, url.canBeABase := by
  induction urls with
  | nil => simp [pushNarinfo]
  | cons url rest ih =>
      rw [List.forall_mem_cons, ← ih, ← Url.pushSegment_isSome encode url narinfoFilename]
      rw [pushNarinfo]
      rcases url.pushSegment encode narinfoFilename with _ | probed
      · simp
      · rcases pushNarinfo encode narinfoFilename rest with panic | others <;> simp

/-- Probing panics exactly when some URL cannot be a base. -/
theorem upstreamCachesHaveNarinfo_isOk (narinfoFilename : String) (urls : List Url)
    (answers : List (Option StatusCode)) :
    (∃ found, upstreamCachesHaveNarinfo encode narinfoFilename urls answers = .ok found) ↔
      ∀ url ∈ urls, url.canBeABase := by
  rw [← pushNarinfo_isOk encode narinfoFilename urls]
  unfold upstreamCachesHaveNarinfo
  rcases pushNarinfo encode narinfoFilename urls with panic | probed <;> simp

end Probing

variable {ε : Type u} (parse : String → Except ε Url) (encode : String → String)

/-- **An accepted list never makes the daemon panic** exactly when none of its
items is a URL with an opaque path.

What is accepted is what parses; that the URL can be a base is asked for only by the
`expect` in the probe, at the first path that is handled. -/
theorem accepted_caches_never_panic_iff {value : String} {urls : List Url}
    (accepted : parseUpstreamCaches parse value = .ok urls) :
    (∀ narinfoFilename answers,
        ∃ found, upstreamCachesHaveNarinfo encode narinfoFilename urls answers = .ok found) ↔
      ∀ item ∈ items value, ∀ url, parse item = .ok url → url.canBeABase := by
  have parsed := (collect_eq_ok parse).mp accepted
  have probing : (∀ narinfoFilename answers,
      ∃ found, upstreamCachesHaveNarinfo encode narinfoFilename urls answers = .ok found) ↔
        ∀ url ∈ urls, url.canBeABase := by
    constructor
    · intro always
      exact (upstreamCachesHaveNarinfo_isOk encode "" urls []).mp (always "" [])
    · intro bases narinfoFilename answers
      exact (upstreamCachesHaveNarinfo_isOk encode narinfoFilename urls answers).mpr bases
  rw [probing]
  exact forall_parsed parse parsed

/-- A parser of absolute URLs without a query or a fragment: a scheme followed by
an authority and a path, or by an opaque path. -/
def parseAbsolute (item : String) : Except Unit Url :=
  let scheme := item.toList.takeWhile (· ≠ ':')
  if scheme = [] ∨ item.toList.any (fun c => c = '?' ∨ c = '#') then .error ()
  else
    match item.toList.dropWhile (· ≠ ':') with
    | ':' :: '/' :: '/' :: rest =>
        let authority := rest.takeWhile (· ≠ '/')
        let path := rest.dropWhile (· ≠ '/')
        .ok { origin := String.ofList (scheme ++ "://".toList ++ authority),
              path := .hierarchical (if path = [] then "/" else String.ofList path), suffix := "" }
    | ':' :: '/' :: _ => .error ()
    | ':' :: rest =>
        .ok { origin := String.ofList (scheme ++ [':']),
              path := .opaquePath (String.ofList rest), suffix := "" }
    | _ => .error ()

/-- The default upstream cache is probed without a panic. -/
theorem accepted_caches_never_panic_iff_nixos :
    ∃ urls, parseUpstreamCaches parseAbsolute "https://cache.nixos.org" = .ok urls ∧
      ∀ narinfoFilename answers, ∃ found,
        upstreamCachesHaveNarinfo id narinfoFilename urls answers = .ok found := by
  have accepted : parseUpstreamCaches parseAbsolute "https://cache.nixos.org" =
      .ok [{ origin := "https://cache.nixos.org", path := .hierarchical "/", suffix := "" }] := by
    decide +kernel
  refine ⟨_, accepted, (accepted_caches_never_panic_iff parseAbsolute id accepted).mpr ?_⟩
  rw [← forall_parsed parseAbsolute ((collect_eq_ok parseAbsolute).mp accepted)]
  simp [Url.canBeABase]

/-- `mailto:x` is accepted as an upstream cache, and panics when it is probed. -/
theorem mailto_accepted_and_panics :
    ∃ urls, parseUpstreamCaches parseAbsolute "mailto:x" = .ok urls ∧
      upstreamCachesHaveNarinfo id "00000000000000000000000000000000.narinfo" urls [] =
        .error { message := "upstream cache URL can be a base" } :=
  ⟨[{ origin := "mailto:", path := .opaquePath "x", suffix := "" }], by decide +kernel,
    by decide +kernel⟩

end UpstreamCaches

end CacheAction
