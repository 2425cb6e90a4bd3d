/-!
# Names of Files

A name of a file is a list of segments between slashes. Empty segments and
segments that are a single dot say nothing, except for a slash or a dot that
comes first.

## Main definitions

* `Pathname.isAbsolute`: Names that start at the root.
* `Pathname.directory`: The name of the directory that holds a file.
* `Pathname.join`: A name taken relative to a directory.
* `Pathname.beside`: A name taken relative to the directory of a file.
-/

namespace AprsRelay

namespace Pathname

/-- Names that start at the root. -/
def isAbsolute (name : String) : Bool :=
  name.toList.head? = some '/'

/-- Segments that say nothing. -/
def isIdle (segment : List Char) : Bool :=
  segment = [] || segment = ['.']

/-- The segments without the idle ones at the end. -/
def trimIdle (segments : List (List Char)) : List (List Char) :=
  (segments.reverse.dropWhile isIdle).reverse

/-- The part of a name that says where it starts: at the root, or at the
    working directory if that is said, and what follows it. -/
def splitStart : List Char → List Char × List Char
  | '/' :: rest => (['/'], rest)
  | ['.'] => (['.'], [])
  | '.' :: '/' :: rest => (['.'], '/' :: rest)
  | name => ([], name)

/-- The name of the directory that holds a file; empty if the name has no
    segment to take away. -/
def directory (name : String) : String :=
  let (start, rest) := splitStart name.toList
  -- A slash or a dot behind the last segment does not name a directory of its own.
  let segments := trimIdle (rest.splitOn '/')
  if segments = [] then ""
  else
    String.ofList (start ++ ['/'].intercalate (trimIdle segments.dropLast))

/-- A name taken relative to a directory. -/
def join (base name : String) : String :=
  if isAbsolute name then name
  else if base = "" ∨ base.toList.getLast? = some '/' then base ++ name
  else base ++ "/" ++ name

/-- A name taken relative to the directory of a file. -/
def beside (file name : String) : String :=
  join (directory file) name

end Pathname

end AprsRelay
