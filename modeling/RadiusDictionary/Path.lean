import RadiusDictionary.Text.Pieces

/-! # Paths

A path is kept as its pieces between slashes, so that it is written as it was given. Two paths are
the `same` if they have the same components: repeated slashes, a slash at the end and the pieces `.`
do not count, and `..` is a component like any other. -/

namespace RadiusDictionary

/-- A path, cut at its slashes. -/
structure Path where
  pieces : List String
deriving DecidableEq, Repr, Inhabited

namespace Path

/-- The path that a text writes. -/
def ofText (text : String) : Path := ⟨Text.pieces '/' text⟩

/-- The path as a text. -/
def text (p : Path) : String := "/".intercalate p.pieces

/-- A path is written as it was given. -/
@[simp] theorem text_ofText (t : String) : (ofText t).text = t := Text.intercalate_pieces '/' t

instance : ToString Path := ⟨text⟩

/-- Whether the path starts with a slash. -/
def isAbsolute (p : Path) : Bool :=
  match p.pieces with
  | "" :: _ :: _ => true
  | _ => false

/-- The pieces to which a further path is added: without the empty one after a last slash. -/
def stem (p : Path) : List String :=
  if p.pieces.getLast? = some "" then p.pieces.dropLast else p.pieces

/-- The path `q` as seen from `p`; an absolute `q` stands for itself. -/
def join (p q : Path) : Path := if q.isAbsolute then q else ⟨p.stem ++ q.pieces⟩

/-- The path `q`, given by its text, as seen from `p`. -/
def joinText (p : Path) (q : String) : Path := p.join (ofText q)

/-- The pieces that count: neither empty nor `.`. -/
def names (p : Path) : List String := p.pieces.filter fun piece => piece ≠ "" && piece ≠ "."

/-- Whether a relative path starts with the piece `.`, which counts there. -/
def startsHere (p : Path) : Bool := p.pieces.head? = some "."

/-- What counts of a path: how it starts, and its names, the innermost first. -/
structure Key where
  isAbsolute : Bool
  startsHere : Bool
  names : List String
deriving DecidableEq, Repr, Inhabited

/-- The components of the path. -/
def key (p : Path) : Key := ⟨p.isAbsolute, p.startsHere, p.names.reverse⟩

/-- Whether two paths have the same components. -/
def same (p q : Path) : Bool := p.key == q.key

/-- The pieces without the empty ones and `.` at the end. -/
def trimEnd (pieces : List String) : List String :=
  (pieces.reverse.dropWhile fun piece => piece = "" || piece = ".").reverse

/-- The folder of a path: without its last component. -/
def parent (p : Path) : Path :=
  let pieces := trimEnd (trimEnd p.pieces).dropLast
  ⟨if p.isAbsolute && pieces.all (· = "") then ["", ""] else pieces⟩

end Path

end RadiusDictionary
