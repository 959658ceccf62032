import ApiAtlas.Fault
import ApiAtlas.Text.Parts

/-!
# Files

A path is written in one way only: without empty parts and without parts that
stay where they are.  Reading a file gives its bytes or a failure.  A set of
files that is held as a list behaves like a directory that has nothing else in
it.
-/

namespace ApiAtlas.Document

/-- What reading the file of a path gives. -/
abbrev Files := String → Except FileFailure (List UInt8)

/-- What an absolute path starts with. -/
def rootOfPath (path : List Char) : String :=
  match path with
  | '/' :: '/' :: '/' :: _ => "/"
  | '/' :: '/' :: _ => "//"
  | '/' :: _ => "/"
  | _ => ""

/-- The parts of a path that lead anywhere. -/
def pathParts (path : String) : List String :=
  (Text.parts '/' path).filter fun part => part ≠ "" && part ≠ "."

/-- The one way of writing a path. -/
def normalPath (path : String) : String :=
  let written :=
    rootOfPath path.toList ++ String.intercalate "/" (pathParts path)
  if written = "" then "." else written

/-- The greatest number of bytes in a part of a path. -/
def partLimit : Nat := 255

/-- The greatest number of bytes in a path. -/
def pathLimit : Nat := 4095

/-- What a name in a directory stands for. -/
inductive FileEntry where
  | file (content : List UInt8)
  | directory
deriving DecidableEq, Repr

/-- The entry at some parts among files with paths of their own. -/
def entryAt? (files : List (List String × List UInt8)) (parts : List String) :
    Option FileEntry :=
  match files.find? fun file => file.1 == parts with
  | some file => some (.file file.2)
  | none =>
    if parts.isEmpty || files.any fun file => parts.isPrefixOf file.1 then
      some .directory
    else none

/-- The failure of a path that leaves the directory that holds the files. -/
def outsideFailure (rest : List String) : FileFailure :=
  if rest.all (· == "..") then .isDirectory else .notFound

/-- The file that parts lead to from a directory; two dots lead back. -/
def follow (files : List (List String × List UInt8)) :
    List String → List String → Except FileFailure (List UInt8)
  | place, [] =>
    match entryAt? files place with
    | some (.file content) => .ok content
    | some .directory => .error .isDirectory
    | none => .error .notFound
  | place, part :: rest =>
    match entryAt? files place with
    | some .directory =>
      if partLimit < part.utf8ByteSize then .error .nameTooLong
      else if part = ".." then
        if place.isEmpty then .error (outsideFailure rest)
        else follow files place.dropLast rest
      else follow files (place ++ [part]) rest
    | some (.file _) => .error .notDirectory
    | none => .error .notFound

/-- The files of a list; nothing is known of a path from the root. -/
def Files.ofList (files : List (String × List UInt8)) : Files := fun path =>
  if pathLimit < path.utf8ByteSize then .error .nameTooLong
  else if path.toList.head? = some '/' then
    .error (outsideFailure (pathParts path))
  else
    follow (files.map fun file => (pathParts file.1, file.2)) []
      (pathParts path)

/-- The bytes of the file of a path. -/
def readFile (files : Files) (path : String) :
    Except Fault (List UInt8) :=
  if path.toList.contains (Char.ofNat 0) then .error .pathHoldsNul
  else (files path).mapError fun failure => .file failure path

/-- A text in which every line ends in a line feed. -/
def normalLines : List Char → List Char
  | '\r' :: '\n' :: rest => '\n' :: normalLines rest
  | '\r' :: rest => '\n' :: normalLines rest
  | c :: rest => c :: normalLines rest
  | [] => []

/-- The text of the file of a path. -/
def readText (files : Files) (path : String) : Except Fault String := do
  let bytes ← readFile files path
  let characters ←
    (Text.Encoding.utf8.decodeAll bytes).mapError Fault.encoding
  return String.ofList (normalLines characters)

end ApiAtlas.Document
