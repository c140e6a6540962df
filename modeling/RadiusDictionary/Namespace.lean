import RadiusDictionary.Identifier
import RadiusDictionary.Path
import RadiusDictionary.Text.Blank
import RadiusDictionary.Text.Pieces

/-! # Namespaces

A namespace is a module path such as `radius::dictionary::vsa_acme`, kept as its segments. Users
write one with `::` or with dots between the segments; each vendor has one of its own, made from the
vendor's name. -/

namespace RadiusDictionary

/-- A module path, as its segments from the outside in. -/
structure Namespace where
  segments : List String
deriving DecidableEq, Repr, Inhabited

namespace Namespace

/-- The segments that a text writes: cut at `::` and at dots, without the blanks around them, empty
ones left out. -/
def parse (text : String) : Namespace :=
  let parts := (Text.piecesAtPair ':' text.toList).flatMap (Text.piecesBy (· == '.'))
  ⟨((parts.map Text.trimChars).filter (!·.isEmpty)).map .ofList⟩

/-- A segment that is no path keyword. -/
def guardSegment (segment : String) : String :=
  if Identifier.isPathKeyword segment then segment ++ "_" else segment

/-- The namespace of a vendor below the root: `vsa_` and the name in lower case, each hyphen in the
name starting a new segment. -/
def ofVendor (vendorName : String) : Namespace :=
  match (Text.pieces '-' (Text.lowercase vendorName)).filter (· ≠ "") with
  | [] => ⟨[sanitize "vsa_"]⟩
  | first :: rest =>
    ⟨sanitize ("vsa_" ++ first) :: rest.map fun part => guardSegment (sanitize part)⟩

/-- Whether there are no segments. -/
def isEmpty (ns : Namespace) : Bool := ns.segments.isEmpty

/-- The namespace as it is written in source. -/
def text (ns : Namespace) : String := "::".intercalate ns.segments

instance : ToString Namespace := ⟨text⟩

/-- The namespace `other` below `ns`. -/
def join (ns other : Namespace) : Namespace := ⟨ns.segments ++ other.segments⟩

/-- The namespace one segment below `ns`. -/
def child (ns : Namespace) (segment : String) : Namespace := ⟨ns.segments ++ [segment]⟩

/-- What is left of a list after another at its front. -/
def dropFront? : List String → List String → Option (List String)
  | [], segments => some segments
  | _ :: _, [] => none
  | b :: base, s :: segments => if b = s then dropFront? base segments else none

/-- The segments of `ns` below `base`, if it lies there. -/
def below? (ns base : Namespace) : Option (List String) := dropFront? base.segments ns.segments

/-- The order of segment lists: by the first difference, and a front before the whole. -/
def compareSegments : List String → List String → Ordering
  | [], [] => .eq
  | [], _ :: _ => .lt
  | _ :: _, [] => .gt
  | s :: ss, t :: ts => (compare s t).then (compareSegments ss ts)

/-- The order of namespaces. -/
def order (ns other : Namespace) : Ordering := compareSegments ns.segments other.segments

/-- The folder of a namespace below the root of the generated source. -/
def folder (ns : Namespace) (root : Path) : Path := ns.segments.foldl Path.joinText root

end Namespace

end RadiusDictionary
