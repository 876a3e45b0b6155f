import SlashingGuard.Bytes

/-! # Paths

    A path is text that slashes cut into pieces.  Each piece is a step: into a
    directory by its name, up by two points, or nowhere by one point or an
    empty piece.  Whether a step can be taken is for the file system to say;
    here paths are only taken apart and put together. -/

namespace SlashingGuard

/-- A name put behind the path of a directory. -/
def joinPath (directory name : String) : String :=
  if directory = "" ∨ directory.endsWith "/" then directory ++ name
  else directory ++ "/" ++ name

namespace Path

/-- What stands between two slashes of a path. -/
abbrev Piece : Type := List Char

/-! ## Pieces -/

/-- The pieces of a path; there is one more than there are slashes. -/
def pieces : List Char → List Piece
  | [] => [[]]
  | '/' :: rest => [] :: pieces rest
  | c :: rest =>
    match pieces rest with
    | [] => [[c]]
    | piece :: others => (c :: piece) :: others

/-- Pieces with slashes between them. -/
def assemble : List Piece → List Char
  | [] => []
  | [piece] => piece
  | piece :: others => piece ++ '/' :: assemble others

/-- The steps of a path. -/
def steps (path : String) : List String :=
  ((pieces path.toList).filter (· ≠ [])).map String.ofList

/-- Whether a path begins at the root. -/
def isAbsolute (path : String) : Bool := path.toList.head? == some '/'

/-- Whether a path ends in a slash. -/
def isSlashed (path : String) : Bool := path.toList.getLast? == some '/'

/-! ## Parents -/

/-- Whether a piece leads nowhere. -/
def isIdle (piece : Piece) : Bool := piece == [] || piece == ['.']

/-- Pieces without those at the end that lead nowhere. -/
def settled (l : List Piece) : List Piece := (l.reverse.dropWhile isIdle).reverse

/-- Pieces without the last one that leads somewhere. -/
def withoutLast (l : List Piece) : List Piece := settled (settled l).dropLast

/-- The path without its last step.  A path that begins with a slash or a point keeps it; the
    root and the empty path have no step to lose. -/
def parent? (path : String) : Option String :=
  match pieces path.toList with
  | [] => none
  | first :: others =>
    if !isIdle first then some (String.ofList (assemble (withoutLast (first :: others))))
    else if !(settled others).isEmpty then
      let kept := withoutLast others
      some (String.ofList (if first.isEmpty && kept.isEmpty then ['/']
        else assemble (first :: kept)))
    else if first.isEmpty then none
    else some ""

/-- A path and the paths above it, from the path on, as far as `fuel` reaches. -/
def upwardsFrom : (fuel : Nat) → String → List String
  | 0, path => [path]
  | fuel + 1, path =>
    match parent? path with
    | none => [path]
    | some parent => path :: upwardsFrom fuel parent

/-- A path and all paths above it.  Each has a piece less than the one before it. -/
def upwards (path : String) : List String :=
  upwardsFrom (pieces path.toList).length path

end Path

end SlashingGuard
