/-!
# Paths — file names with directories, as text

A path keeps its spelling. Its `Components` say which file it names: a root, a leading `.` and
the names after it; other `.` components, repeated slashes and a slash at the end do not count.
`parent?` and `join` work on the spelling.
-/

namespace FluentBuilder.Path

/-- The pieces of a text between slashes. -/
def segments : List Char → List (List Char)
  | [] => [[]]
  | c :: rest =>
    if c == '/' then [] :: segments rest
    else match segments rest with
      | [] => [[c]]
      | s :: others => (c :: s) :: others

/-- What a path consists of. -/
structure Components where
  rooted : Bool
  dotted : Bool
  names  : List (List Char)
  deriving DecidableEq, Repr

/-- Decide whether a segment counts as a component. -/
def isName (segment : List Char) : Bool := segment != [] && segment != ['.']

/-- The components of a path. -/
def components (path : String) : Components :=
  match path.toList with
  | '/' :: rest => ⟨true, false, (segments rest).filter isName⟩
  | cs =>
    match segments cs with
    | first :: rest => ⟨false, first == ['.'], (first :: rest).filter isName⟩
    | [] => ⟨false, false, []⟩

/-- Decide whether two paths have the same components. -/
def same (a b : String) : Bool := components a == components b

/-- Cut a path into its root or leading dot and the rest. -/
def splitHead : List Char → List Char × List Char
  | '/' :: rest => (['/'], rest)
  | ['.'] => (['.'], [])
  | '.' :: '/' :: rest => (['.'], '/' :: rest)
  | cs => ([], cs)

/-- Put segments back together with slashes in between. -/
def joinSegments (segments : List (List Char)) : List Char :=
  (segments.intersperse ['/']).flatten

/-- The directory of a path, if the path names anything in one. -/
def parent? (path : String) : Option String :=
  let (head, body) := splitHead path.toList
  let backwards := (segments body).reverse.dropWhile (!isName ·)
  match backwards with
  | [] => if head == ['.'] then some "" else none
  | _ :: rest =>
    some (String.ofList (head ++ joinSegments (rest.dropWhile (!isName ·)).reverse))

/-- A path below a directory; a path with a root stays as it is. -/
def join (directory name : String) : String :=
  let ds := directory.toList
  let cs := name.toList
  if cs.head? == some '/' then name
  else if ds == [] || ds.getLast? == some '/' then String.ofList (ds ++ cs)
  else String.ofList (ds ++ '/' :: cs)

end FluentBuilder.Path
