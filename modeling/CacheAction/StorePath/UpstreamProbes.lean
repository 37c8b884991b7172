import CacheAction.StorePath.PushDecision
import Mathlib.Data.List.DropRight
import Mathlib.Data.Set.Defs

/-!
# The URLs that are probed

For every store path, the handler takes a clone of the configured upstream
caches, pushes the name of the NARInfo file onto each of them and requests what
comes out.  `handleAll` is that, for a sequence of store paths.

Where the file is to be found is `narinfoBelow`: below the base, whose
trailing slashes do not count.  `path_segments_mut().push` puts a slash in front
of the segment unless the path is exactly `/`, so a trailing slash of a deeper
path is kept and doubled.  `probes_right_iff` says that this is the only way in
which a probe goes wrong.

The percent-encoding of a segment is a parameter; of it we only need that it
leaves letters, digits and dots alone.

That the list is cloned for each path is in the model, since without it a second path would be
asked for below the file of the first.  `ProbesRight` compares two lists of bases that name the
same directories, in three ways: by the URLs that are requested, by those of another spelling
of the same bases, and by what a world of files answers.  A base is a URL with a path; those
without one panic, and are no subject of this module (`CacheAction.StorePath.UpstreamCaches`).
-/

namespace CacheAction

/-- The path ends in a slash. -/
def EndsInSlash (path : String) : Prop :=
  path.toList.getLast? = some '/'

instance (path : String) : Decidable (EndsInSlash path) :=
  inferInstanceAs (Decidable (_ = _))

/-- The path without its trailing slashes. -/
def stripSlashes (path : String) : String :=
  String.ofList (path.toList.rdropWhile (· = '/'))

/-- Stripping leaves a path alone exactly when it does not end in a slash. -/
theorem stripSlashes_eq_self_iff (path : String) : stripSlashes path = path ↔ ¬ EndsInSlash path := by
  rw [stripSlashes, EndsInSlash, ← String.toList_inj, String.toList_ofList,
    List.rdropWhile_eq_self_iff]
  constructor
  · intro kept slash
    have nonempty : path.toList ≠ [] := by
      intro empty
      simp [empty] at slash
    rw [List.getLast?_eq_some_getLast nonempty] at slash
    exact kept nonempty (decide_eq_true (Option.some.inj slash))
  · intro kept nonempty slash
    apply kept
    rw [List.getLast?_eq_some_getLast nonempty, of_decide_eq_true slash]

namespace HandleStorePath

open Sub60 UpstreamCaches

/-- The alphabet of store path digests. -/
def nix32Chars : List Char := "0123456789abcdfghijklmnpqrsvwxyz".toList

/-- `NarInfoFileName`. -/
structure NarInfoFileName where
  digest : List Char
  nix32 : ∀ c ∈ digest, c ∈ nix32Chars

/-- A digest of zeros. -/
def NarInfoFileName.zeros (n : ℕ) : NarInfoFileName where
  digest := List.replicate n '0'
  nix32 c member := by
    rw [List.eq_of_mem_replicate member]
    decide +kernel

/-- `NarInfoFileName::to_string`. -/
def NarInfoFileName.toString (name : NarInfoFileName) : String :=
  String.ofList (name.digest ++ ".narinfo".toList)

/-- What is known of the percent-encoding of a path segment. -/
def KeepsUnreserved (encode : String → String) : Prop :=
  ∀ segment : String, (∀ c ∈ segment.toList, c.isAlphanum = true ∨ c = '.') →
    encode segment = segment

/-- The NARInfo file of a store path, below a base. -/
def narinfoBelow (base : BaseUrl) (name : NarInfoFileName) : BaseUrl :=
  { base with path := stripSlashes base.path ++ "/" ++ name.toString }

variable {E : Type} (fmt : Formats E)

/-- What `upstream_caches_have_narinfo` requests in the handlers of a sequence of
store paths.  Each of them changes its own clone of the configured caches. -/
def handleAll (configured : List Url) : List NarInfoFileName → List (List CheckObs)
  | [] => []
  | name :: rest =>
      let upstreamCaches := configured
      (Check.probe fmt name.toString upstreamCaches Check.selectRight).2 ::
        handleAll configured rest

/-- Two configurations that differ in trailing slashes alone. -/
def SameButSlashes : List BaseUrl → List BaseUrl → Prop :=
  List.Forall₂ fun base other =>
    base.origin = other.origin ∧ base.suffix = other.suffix ∧
      stripSlashes base.path = stripSlashes other.path

/-- The right URLs are probed, for all configurations with admitted bases. -/
structure ProbesRight (admitted : Set BaseUrl) : Prop where
  /-- Each handler asks each upstream cache for the file below its base, whatever
  the others ask for. -/
  right : ∀ bases : List BaseUrl, (∀ base ∈ bases, base ∈ admitted) → ∀ names,
    handleAll fmt (bases.map BaseUrl.toUrl) names =
      names.map fun name => bases.map fun base => .get (narinfoBelow base name).toUrl
  /-- Trailing slashes do not matter for the requests. -/
  sameProbes : ∀ bases others : List BaseUrl, (∀ base ∈ bases, base ∈ admitted) →
    (∀ base ∈ others, base ∈ admitted) → SameButSlashes bases others → ∀ names,
      handleAll fmt (bases.map BaseUrl.toUrl) names = handleAll fmt (others.map BaseUrl.toUrl) names
  /-- They do not matter for the decision, when each URL has one answer. -/
  sameSkips : ∀ bases others : List BaseUrl, (∀ base ∈ bases, base ∈ admitted) →
    (∀ base ∈ others, base ∈ admitted) → SameButSlashes bases others →
    ∀ (name : NarInfoFileName) (world : Url → Option StatusCode)
      (own : Except (CacheRequestError E) Bool) probed probed',
      pushNarinfo fmt.encodeSegment name.toString (bases.map BaseUrl.toUrl) = .ok probed →
      pushNarinfo fmt.encodeSegment name.toString (others.map BaseUrl.toUrl) = .ok probed' →
        decision own (probed.map world) = decision own (probed'.map world)

section Names

/-- The name of a NARInfo file needs no encoding. -/
theorem NarInfoFileName.encode_toString {encode : String → String} (keeps : KeepsUnreserved encode)
    (name : NarInfoFileName) : encode name.toString = name.toString := by
  have alphabet : nix32Chars.all Char.isAlphanum = true := by decide +kernel
  have extension : ".narinfo".toList.all (fun c => c.isAlphanum || c == '.') = true := by
    decide +kernel
  apply keeps
  intro c member
  rw [toString, String.toList_ofList, List.mem_append] at member
  rcases member with digit | rest
  · exact .inl (List.all_eq_true.mp alphabet c (name.nix32 c digit))
  · simpa using List.all_eq_true.mp extension c rest

/-- Nor is it a dot segment. -/
theorem NarInfoFileName.not_dots (name : NarInfoFileName) :
    ¬ (name.toString = "." ∨ name.toString = "..") := by
  have long : 8 ≤ name.toString.toList.length := by
    rw [toString, String.toList_ofList, List.length_append]
    exact Nat.le_add_left _ _
  rintro (dot | dots)
  · rw [dot] at long
    exact absurd long (by decide)
  · rw [dots] at long
    exact absurd long (by decide)

end Names

section Probes

variable {fmt}

/-- Pushing the name gives the file below the base, unless a slash is doubled. -/
theorem push_eq_narinfoBelow_iff (keeps : KeepsUnreserved fmt.encodeSegment) (base : BaseUrl)
    (name : NarInfoFileName) :
    base.push fmt.encodeSegment name.toString = narinfoBelow base name ↔
      base.path = "/" ∨ ¬ EndsInSlash base.path := by
  rw [BaseUrl.push, if_neg name.not_dots, name.encode_toString keeps, narinfoBelow]
  by_cases root : base.path = "/"
  · have stripped : stripSlashes "/" = "" := by decide +kernel
    simp [root, stripped]
  · rw [if_neg root, or_iff_right root, ← stripSlashes_eq_self_iff]
    constructor
    · intro same
      have paths : base.path ++ "/" ++ name.toString =
          stripSlashes base.path ++ "/" ++ name.toString := congrArg BaseUrl.path same
      rw [← String.toList_inj]
      simpa [String.append_assoc, ← String.toList_inj] using paths.symm
    · intro same
      rw [same]

/-- Every base is pushed onto on its own, and none fails. -/
theorem pushNarinfo_bases (bases : List BaseUrl) (name : NarInfoFileName) :
    pushNarinfo fmt.encodeSegment name.toString (bases.map BaseUrl.toUrl) =
      .ok (bases.map fun base => (base.push fmt.encodeSegment name.toString).toUrl) := by
  rw [pushNarinfo_eq_ok, List.forall₂_map_left_iff, List.forall₂_map_right_iff,
    List.forall₂_same]
  exact fun base _ => base.pushSegment_toUrl fmt.encodeSegment name.toString

/-- What the handlers request: each starts from the configured caches. -/
theorem handleAll_bases (bases : List BaseUrl) (names : List NarInfoFileName) :
    handleAll fmt (bases.map BaseUrl.toUrl) names =
      names.map fun name =>
        bases.map fun base => .get (base.push fmt.encodeSegment name.toString).toUrl := by
  induction names with
  | nil => rfl
  | cons name rest ih =>
      have first : (Check.probe fmt name.toString (bases.map BaseUrl.toUrl)
          Check.selectRight).2 =
            bases.map fun base => .get (base.push fmt.encodeSegment name.toString).toUrl := by
        rw [Check.probe, pushNarinfo_bases]
        exact List.map_map
      rw [handleAll, List.map_cons, ih, first]

/-- The files below the bases do not depend on trailing slashes. -/
theorem narinfoBelow_congr {bases others : List BaseUrl} (same : SameButSlashes bases others)
    (name : NarInfoFileName) :
    bases.map (narinfoBelow · name) = others.map (narinfoBelow · name) := by
  induction same with
  | nil => rfl
  | cons first rest ih =>
      obtain ⟨origin, suffix, path⟩ := first
      rw [List.map_cons, List.map_cons, ih, narinfoBelow, narinfoBelow, origin, suffix, path]

theorem toUrl_inj {base other : BaseUrl} (same : base.toUrl = other.toUrl) : base = other := by
  obtain ⟨origin, path, suffix⟩ := base
  obtain ⟨origin', path', suffix'⟩ := other
  simpa [BaseUrl.toUrl] using same

end Probes

/-- **The right URLs are probed** exactly when no base but the root ends in a
slash.

`path_segments_mut().push` adds a segment after the empty one that a slash at the end leaves
behind, so that the file is asked for below `//`; only for the root is the empty segment
replaced.  The condition is on each base alone, and one base is enough to show that it is
necessary. -/
theorem probes_right_iff (keeps : KeepsUnreserved fmt.encodeSegment) (admitted : Set BaseUrl) :
    ProbesRight fmt admitted ↔
      ∀ base ∈ admitted, base.path = "/" ∨ ¬ EndsInSlash base.path := by
  constructor
  · intro probes base member
    -- a single base and any name show it
    let name := NarInfoFileName.zeros 1
    have requested := probes.right [base] (by simpa using member) [name]
    rw [handleAll_bases] at requested
    have same : (base.push fmt.encodeSegment name.toString).toUrl =
        (narinfoBelow base name).toUrl := by simpa using requested
    exact (push_eq_narinfoBelow_iff keeps base name).mp (toUrl_inj same)
  · intro slashless
    have pushed : ∀ bases : List BaseUrl, (∀ base ∈ bases, base ∈ admitted) → ∀ name,
        (bases.map fun base => base.push fmt.encodeSegment name.toString) =
          bases.map (narinfoBelow · name) := by
      intro bases members name
      refine List.map_congr_left fun base member => ?_
      exact (push_eq_narinfoBelow_iff keeps base name).mpr (slashless base (members base member))
    have right : ∀ bases : List BaseUrl, (∀ base ∈ bases, base ∈ admitted) → ∀ names,
        handleAll fmt (bases.map BaseUrl.toUrl) names =
          names.map fun name =>
            (bases.map (narinfoBelow · name)).map fun probe => .get probe.toUrl := by
      intro bases members names
      rw [handleAll_bases]
      refine List.map_congr_left fun name _ => ?_
      rw [← pushed bases members name, List.map_map]
      rfl
    refine ⟨?_, ?_, ?_⟩
    · intro bases members names
      rw [right bases members names]
      refine List.map_congr_left fun name _ => ?_
      exact List.map_map
    · intro bases others members members' same names
      rw [right bases members names, right others members' names]
      refine List.map_congr_left fun name _ => ?_
      rw [narinfoBelow_congr same name]
    · intro bases others members members' same name world own probed probed' hprobed hprobed'
      have urls : ∀ bases : List BaseUrl, (∀ base ∈ bases, base ∈ admitted) →
          pushNarinfo fmt.encodeSegment name.toString (bases.map BaseUrl.toUrl) =
            .ok ((bases.map (narinfoBelow · name)).map BaseUrl.toUrl) := by
        intro bases members
        rw [pushNarinfo_bases, ← pushed bases members name, List.map_map]
        rfl
      rw [urls bases members] at hprobed
      rw [urls others members', ← narinfoBelow_congr same name] at hprobed'
      rw [← Except.ok.inj hprobed, ← Except.ok.inj hprobed']

/-- Two caches, one at the root of its host and one below it. -/
def twoCaches : List BaseUrl :=
  [{ origin := "https://cache.nixos.org", path := "/", suffix := "" },
    { origin := "https://example.org", path := "/cache", suffix := "?token=1" }]

theorem probes_right_two_caches :
    ProbesRight textFormats { base | base ∈ twoCaches } :=
  (probes_right_iff textFormats (fun _ _ => rfl) _).mpr (by
    intro base member
    rcases List.mem_cons.mp member with rfl | member
    · exact .inl rfl
    · obtain rfl := List.mem_singleton.mp member
      exact .inr (by decide +kernel))

/-- The cache `https://example.org/cache/` is asked for a file that is not below
it. -/
theorem trailing_slash_doubled :
    let base : BaseUrl := { origin := "https://example.org", path := "/cache/", suffix := "" }
    let name := NarInfoFileName.zeros 32
    handleAll textFormats [base.toUrl] [name] =
        [[.get
          { origin := "https://example.org", suffix := ""
            path := .hierarchical "/cache//00000000000000000000000000000000.narinfo" }]] ∧
      (narinfoBelow base name).path = "/cache/00000000000000000000000000000000.narinfo" ∧
      ¬ ProbesRight textFormats { base } := by
  refine ⟨by decide +kernel, by decide +kernel, fun probes => ?_⟩
  have doubled : handleAll textFormats _ [.zeros 1] = _ :=
    probes.right [{ origin := "https://example.org", path := "/cache/", suffix := "" }]
      (fun base member => List.mem_singleton.mp member) [.zeros 1]
  revert doubled
  decide +kernel

end HandleStorePath

end CacheAction
