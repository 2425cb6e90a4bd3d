import AprsRelay.Text.Utf8

/-!
# Files

Reading a file by name, as far as the program has to know about it: a file has
bytes, or there is a reason why it has none. A disk that is held in memory
answers as a file system would, for names taken relative to its top directory.

## Main definitions

* `ReadFault`: Why a file cannot be read.
* `decodeText`: The text of a file.
* `Disk`: Files held in memory.
* `Disk.walk`: The place that a name leads to.
* `Disk.read`: The bytes of a file.
-/

namespace AprsRelay

/-- Why a file cannot be read. -/
inductive ReadFault where
  | notFound
  | isDirectory
  | notDirectory
  | notText
  | other
  deriving DecidableEq, Repr

/-- The bytes of a file as a text. -/
def decodeText (bytes : Bytes) : Except ReadFault String :=
  match Text.ofUtf8? bytes with
  | none => .error .notText
  | some text => .ok text

/-- Files held in memory, under names relative to the top directory. The
    directories are those that the files need. -/
structure Disk where
  files : List (String × Bytes)

/-- A place, as the directories that lead to it; or somewhere above the top
    directory, where nothing can be read. -/
inductive Place where
  | inside (segments : List (List Char))
  | outside
  deriving DecidableEq, Repr

namespace Disk

/-- The segments of a name that lead somewhere. -/
def segmentsOf (name : String) : List (List Char) :=
  (name.toList.splitOn '/').filter fun segment => segment ≠ [] ∧ segment ≠ ['.']

/-- The file at a place. -/
def fileAt? (disk : Disk) (segments : List (List Char)) : Option Bytes :=
  (disk.files.find? fun file => segmentsOf file.1 = segments).map (·.2)

/-- Whether a place is a directory. -/
def isDirectory (disk : Disk) (segments : List (List Char)) : Bool :=
  segments = [] || disk.files.any fun file =>
    segments.isPrefixOf (segmentsOf file.1) && segments ≠ segmentsOf file.1

/-- The place that one more segment leads to, from a directory. -/
def enter (disk : Disk) (place : Place) (segment : List Char) : Except ReadFault Place :=
  match place with
  | .outside =>
    -- Above the top directory there is nothing but the way on upwards.
    if segment = [] ∨ segment = ['.'] ∨ segment = ['.', '.'] then .ok .outside
    else .error .notFound
  | .inside here =>
    if disk.isDirectory here then
      if segment = [] ∨ segment = ['.'] then .ok place
      else if segment = ['.', '.'] then
        .ok (if here = [] then .outside else .inside here.dropLast)
      else .ok (.inside (here ++ [segment]))
    else if (disk.fileAt? here).isSome then .error .notDirectory
    else .error .notFound

/-- The place that a name leads to. -/
def walk (disk : Disk) (name : String) : Except ReadFault Place :=
  match name.toList with
  | [] => .error .notFound
  | '/' :: rest => (rest.splitOn '/').foldlM disk.enter .outside
  | segments => (segments.splitOn '/').foldlM disk.enter (.inside [])

/-- The bytes of the file with the given name. -/
def read (disk : Disk) (name : String) : Except ReadFault Bytes :=
  match disk.walk name with
  | .error fault => .error fault
  | .ok .outside => .error .isDirectory
  | .ok (.inside here) =>
    match disk.fileAt? here with
    | some bytes => .ok bytes
    | none => if disk.isDirectory here then .error .isDirectory else .error .notFound

end Disk

end AprsRelay
