import Mathlib.Data.Nat.Notation
import Mathlib.Tactic.Basic

/-!
# URLs and their path segments

A parsed URL, as far as its path is concerned: what precedes the path, the path
and what follows it.  A URL such as `mailto:x` has an opaque path; it *cannot be
a base*, and its path has no segments to modify.

A `BaseUrl` is a URL that can be a base, with its path at hand.  Segments are pushed as the URL
standard says: a slash comes before the segment unless the path is the root alone, the segment
is percent-encoded, in a way that is left open here, and a segment of one or two dots is
ignored.
-/

namespace CacheAction

/-- An HTTP status code. -/
abbrev StatusCode := ℕ

/-- The path of a URL. -/
inductive UrlPath where
  | hierarchical (path : String)
  | opaquePath (path : String)
  deriving DecidableEq, Repr

/-- A parsed URL. -/
@[ext] structure Url where
  /-- The scheme and the authority. -/
  origin : String
  path : UrlPath
  /-- The query and the fragment, with their delimiters. -/
  suffix : String
  deriving DecidableEq, Repr

namespace Url

/-- The URL can be a base: its path is not opaque. -/
def canBeABase (url : Url) : Prop :=
  ∃ path, url.path = .hierarchical path

/-- `path_segments_mut().push(segment)`, with `encode` for the percent-encoding
of a segment; `none` when there are no path segments.  A slash is added unless
the path is exactly `/`, and dot segments are ignored. -/
def pushSegment (encode : String → String) (url : Url) (segment : String) : Option Url :=
  match url.path with
  | .opaquePath _ => none
  | .hierarchical path =>
      if segment = "." ∨ segment = ".." then some url
      else
        some { url with
          path := .hierarchical
            (if path = "/" then path ++ encode segment else path ++ "/" ++ encode segment) }

/-- Pushing a segment fails exactly on the URLs that cannot be a base. -/
theorem pushSegment_isSome (encode : String → String) (url : Url) (segment : String) :
    (url.pushSegment encode segment).isSome = true ↔ url.canBeABase := by
  unfold pushSegment canBeABase
  split
  · rename_i path isOpaque
    simp [isOpaque]
  · rename_i path hierarchical
    split <;> simp [hierarchical]

end Url

/-- A URL that can be a base. -/
structure BaseUrl where
  origin : String
  path : String
  suffix : String
  deriving DecidableEq, Repr

namespace BaseUrl

def toUrl (base : BaseUrl) : Url :=
  { origin := base.origin, path := .hierarchical base.path, suffix := base.suffix }

/-- `path_segments_mut().push(segment)`, which does not fail here. -/
def push (encode : String → String) (base : BaseUrl) (segment : String) : BaseUrl :=
  if segment = "." ∨ segment = ".." then base
  else
    { base with
      path :=
        if base.path = "/" then base.path ++ encode segment
        else base.path ++ "/" ++ encode segment }

theorem pushSegment_toUrl (encode : String → String) (base : BaseUrl) (segment : String) :
    base.toUrl.pushSegment encode segment = some (base.push encode segment).toUrl := by
  unfold Url.pushSegment push toUrl
  split
  · rename_i path isOpaque
    cases isOpaque
  · rename_i path hierarchical
    cases hierarchical
    split <;> rfl

end BaseUrl

end CacheAction
