import CacheAction.Foundations.Fields
import CacheAction.StorePath.UpstreamCaches

/-!
# From the action's input to the daemon's arguments

The action takes the upstream caches as a list separated by whitespace, in which
the single word `none` stands for the empty list (`MainJs.parseUpstreamCaches`).
It hands them to the daemon as one argument, separated by commas
(`MainJs.upstreamCachesArg`), which the daemon splits again
(`parseUpstreamCaches`).

A comma is legal in a URL.  `list_survives_iff` says that the daemon gets the
URLs of the list exactly if none of its elements contains one.  What is assumed
of the parser of single URLs is that a URL does not start with a comma, and that
a comma at its end is a part of it.

Both assumptions are about commas at the ends of an item, where a list that is split and
filtered could lose them without a trace.  In the middle of an element a comma is noticed: two
items come of it, and there is one URL too many, or one of them does not parse.  That the
elements parse at all is a hypothesis, since the daemon refuses to start otherwise, and then
there is no list that could have survived.
-/

namespace CacheAction

namespace MainJs

/-- The characters that `\s` stands for. -/
def isSpace (c : Char) : Bool :=
  (9 ≤ c.toNat && c.toNat ≤ 13) || (0x2000 ≤ c.toNat && c.toNat ≤ 0x200a) ||
    c.toNat ∈ [0x20, 0xa0, 0x1680, 0x2028, 0x2029, 0x202f, 0x205f, 0x3000, 0xfeff]

/-- `input.split(/\s+/).filter(Boolean)`.  A run of whitespace only adds empty
values, which are filtered out. -/
def values (input : String) : List String :=
  ((input.toList.splitOnP isSpace).filter (fun value => !value.isEmpty)).map String.ofList

/-- `parseUpstreamCaches`.  Only ASCII letters have a lower case in `none`. -/
def parseUpstreamCaches (input : String) : List String :=
  match values input with
  | [value] => if value.toLower = "none" then [] else [value]
  | values => values

/-- The value of the daemon's `--upstream-caches`: the argument that `main` adds
or, without it, the default. -/
def upstreamCachesArg (upstreamCaches : List String) : String :=
  if 0 < upstreamCaches.length then ",".intercalate upstreamCaches else ""

theorem values_nonempty (input : String) {value : String} (member : value ∈ values input) :
    value ≠ "" := by
  obtain ⟨chars, kept, rfl⟩ := List.mem_map.mp member
  have nonempty := (List.mem_filter.mp kept).2
  intro empty
  have none_left : chars = [] := by simpa using congrArg String.toList empty
  simp [none_left] at nonempty

/-- The elements of the list are not empty. -/
theorem parseUpstreamCaches_nonempty {input value : String}
    (member : value ∈ parseUpstreamCaches input) : value ≠ "" := by
  apply values_nonempty input
  unfold parseUpstreamCaches at member
  split at member
  · rename_i single
    split at member
    · cases member
    · rwa [single]
  · exact member

end MainJs

namespace UpstreamCaches

universe u

variable {ε : Type u}

/-- What is assumed of a parser of absolute URLs. -/
structure UrlSyntax (parse : String → Except ε Url) : Prop where
  /-- A URL starts with its scheme, hence not with a comma. -/
  leading : ∀ item url, parse item = .ok url → item.toList.head? ≠ some ','
  /-- Commas at the end of a URL belong to it. -/
  trailing : ∀ item n url, 0 < n → parse (item ++ String.ofList (List.replicate n ',')) = .ok url →
    parse item ≠ .ok url

section Items

/-- The items of the daemon's argument are the fields of the elements. -/
theorem items_upstreamCachesArg (values : List String) :
    items (MainJs.upstreamCachesArg values) =
      values.flatMap fun value => (fields ',' value.toList).map String.ofList := by
  have joined : (MainJs.upstreamCachesArg values).toList =
      [','].intercalate (values.map String.toList) := by
    unfold MainJs.upstreamCachesArg
    rcases values with _ | ⟨value, rest⟩
    · rfl
    · rw [if_pos (by simp), String.toList_intercalate]
      rfl
  show (fields ',' (MainJs.upstreamCachesArg values).toList).map String.ofList = _
  rw [joined, fields_intercalate, List.flatMap_map, List.map_flatMap]

/-- Without commas, the items are the elements. -/
theorem items_of_commaless {values : List String} (nonempty : ∀ value ∈ values, value ≠ "")
    (commaless : ∀ value ∈ values, ',' ∉ value.toList) :
    items (MainJs.upstreamCachesArg values) = values := by
  rw [items_upstreamCachesArg]
  induction values with
  | nil => rfl
  | cons value rest ih =>
      obtain ⟨first, others⟩ := List.forall_mem_cons.mp nonempty
      obtain ⟨absent, absents⟩ := List.forall_mem_cons.mp commaless
      have chars : value.toList ≠ [] := by simpa using first
      rw [List.flatMap_cons, ih others absents, fields_eq_singleton chars absent]
      simp

variable {parse : String → Except ε Url} {value : String} {url : Url}

/-- An element starts with a character other than a comma. -/
theorem exists_chars (urlSyntax : UrlSyntax parse) (nonempty : value ≠ "")
    (parsed : parse value = .ok url) : ∃ c rest, value.toList = c :: rest ∧ c ≠ ',' := by
  obtain ⟨c, rest, chars⟩ := List.exists_cons_of_ne_nil
    (show value.toList ≠ [] by simpa using nonempty)
  refine ⟨c, rest, chars, ?_⟩
  rintro rfl
  exact urlSyntax.leading value url parsed (by rw [chars, List.head?_cons])

/-- Every element has an item. -/
theorem items_ne_nil (urlSyntax : UrlSyntax parse) (nonempty : value ≠ "")
    (parsed : parse value = .ok url) : (fields ',' value.toList).map String.ofList ≠ [] := by
  obtain ⟨c, rest, chars, start⟩ := exists_chars urlSyntax nonempty parsed
  obtain ⟨field, others, -, hfields⟩ := exists_fields_cons rest start
  rw [chars, hfields]
  simp

/-- An element with one item that parses to the same URL has no comma. -/
theorem commaless_of_item (urlSyntax : UrlSyntax parse) {item : String} (nonempty : value ≠ "")
    (parsed : parse value = .ok url)
    (single : (fields ',' value.toList).map String.ofList = [item])
    (same : parse item = .ok url) : ',' ∉ value.toList := by
  intro comma
  obtain ⟨field, hfield, rfl⟩ := List.map_eq_singleton_iff.mp single
  obtain ⟨c, rest, chars, start⟩ := exists_chars urlSyntax nonempty parsed
  rw [chars] at hfield
  obtain ⟨n, whole, absent⟩ := eq_append_replicate_of_fields start hfield
  have positive : 0 < n := by
    rcases n with _ | n
    · rw [chars, whole] at comma
      simp [absent] at comma
    · exact Nat.succ_pos n
  have value_eq : value = String.ofList field ++ String.ofList (List.replicate n ',') := by
    rw [← String.toList_inj, chars, whole]
    simp
  rw [value_eq] at parsed
  exact urlSyntax.trailing _ n url positive parsed same

end Items

variable {parse : String → Except ε Url}

/-- **The list of upstream caches survives the trip** from the action to the
daemon exactly when none of its elements contains a comma.

The way back is immediate.  For the way there the daemon's items are grouped by the element
that they come from: an element gives at least one item that is not empty, and there are as
many URLs as elements, so each gives exactly one.  An element starts with its scheme, so with a
comma in it it could give a single item only by commas at its end, and without these it
does not parse to the same URL. -/
theorem list_survives_iff (urlSyntax : UrlSyntax parse) {input : String} {urls : List Url}
    (parsed : List.Forall₂ (fun value url => parse value = .ok url)
      (MainJs.parseUpstreamCaches input) urls) :
    parseUpstreamCaches parse (MainJs.upstreamCachesArg (MainJs.parseUpstreamCaches input)) =
        .ok urls ↔
      ∀ value ∈ MainJs.parseUpstreamCaches input, ',' ∉ value.toList := by
  have nonempty : ∀ value ∈ MainJs.parseUpstreamCaches input, value ≠ "" :=
    fun value member => MainJs.parseUpstreamCaches_nonempty member
  rw [parseUpstreamCaches, collect_eq_ok]
  constructor
  · intro survived
    rw [items_upstreamCachesArg] at survived
    have elements := (List.forall₂_and_left _ _).mpr ⟨nonempty, parsed⟩
    have some_item : ∀ value ∈ MainJs.parseUpstreamCaches input,
        (fields ',' value.toList).map String.ofList ≠ [] := by
      refine forall_of_forall₂ (List.Forall₂.imp ?_ elements)
      rintro value url ⟨nonempty, parsed⟩
      exact items_ne_nil urlSyntax nonempty parsed
    have one_item := forall₂_of_flatMap parsed.length_eq some_item survived
    refine forall_of_forall₂ (List.Forall₂.mp ?_ elements one_item)
    rintro value url ⟨nonempty, parsed⟩ ⟨item, single, same⟩
    exact commaless_of_item urlSyntax nonempty parsed single same
  · intro commaless
    rwa [items_of_commaless nonempty commaless]

/-- Two caches and how they parse. -/
def knownCaches : List (String × Url) :=
  [("https://cache.nixos.org",
      { origin := "https://cache.nixos.org", path := .hierarchical "/", suffix := "" }),
    ("https://example.org/cache",
      { origin := "https://example.org", path := .hierarchical "/cache", suffix := "" })]

/-- A parser that knows these two. -/
def parseKnown (item : String) : Except Unit Url :=
  match knownCaches.lookup item with
  | some url => .ok url
  | none => .error ()

theorem parseKnown_syntax : UrlSyntax parseKnown := by
  have known : ∀ item url, parseKnown item = .ok url → item ∈ knownCaches.map Prod.fst := by
    intro item url parsed
    by_contra unknown
    have missing : knownCaches.lookup item = none := by
      refine List.lookup_eq_none_iff.mpr fun entry member => ?_
      rw [bne_iff_ne]
      rintro rfl
      exact unknown (List.mem_map_of_mem member)
    rw [parseKnown, missing] at parsed
    cases parsed
  have ends : ∀ item ∈ knownCaches.map Prod.fst,
      item.toList.head? ≠ some ',' ∧ item.toList.getLast? ≠ some ',' := by
    decide +kernel
  refine ⟨fun item url parsed => (ends item (known item url parsed)).1, ?_⟩
  intro item n url positive parsed
  rcases n with _ | n
  · exact absurd positive (Nat.lt_irrefl 0)
  · exact absurd (by simp [List.replicate_succ']) (ends _ (known _ url parsed)).2

theorem list_survives_two_caches :
    parseUpstreamCaches parseKnown (MainJs.upstreamCachesArg
        (MainJs.parseUpstreamCaches " https://cache.nixos.org\n https://example.org/cache")) =
      .ok (knownCaches.map Prod.snd) :=
  (list_survives_iff parseKnown_syntax ((collect_eq_ok parseKnown).mp (by decide +kernel))).mpr
    (by decide +kernel)

/-- The URL `https://example.org/a,b` is one element of the action's list, and the
daemon gets two items, the second of which is no URL. -/
theorem comma_splits_url :
    MainJs.parseUpstreamCaches "https://example.org/a,b" = ["https://example.org/a,b"] ∧
      parseAbsolute "https://example.org/a,b" =
        .ok { origin := "https://example.org", path := .hierarchical "/a,b", suffix := "" } ∧
      items (MainJs.upstreamCachesArg ["https://example.org/a,b"]) =
        ["https://example.org/a", "b"] ∧
      parseUpstreamCaches parseAbsolute
        (MainJs.upstreamCachesArg (MainJs.parseUpstreamCaches "https://example.org/a,b")) =
          .error () := by
  decide +kernel

end UpstreamCaches

end CacheAction
