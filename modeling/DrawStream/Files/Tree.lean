import DrawStream.Files.Basic
import DrawStream.Text.Utf8

/-! # File trees

A file tree says what lies at each place, and which place is the one where relative paths
start; absolute paths start at the root.  A path is followed part by part, and each part needs
a directory to start from.  A path that is too long is not followed at all, whatever its
parts. -/
namespace DrawStream

/-- What lies at a place. -/
inductive FileEntry
  | directory
  | file (bytes : List UInt8)
  deriving DecidableEq

/-- A place: the names of the directories that lead to it, and its own. -/
abbrev Place := List String

/-- Directories and files. -/
structure FileTree where
  /-- What lies at a place, if anything does. -/
  entry : Place → Option FileEntry
  /-- Where relative paths start. -/
  here : Place := []

namespace FileTree

/-- A tree with nothing in it. -/
def empty : FileTree where
  entry place := if place = [] then some .directory else none

/-- Puts something at a place. -/
def put (t : FileTree) (place : Place) (e : FileEntry) : FileTree :=
  { t with entry := fun other => if other = place then some e else t.entry other }

/-- How many bytes a name has at most. -/
def greatestName : Nat := 255

/-- Whether something can have this name. -/
def isName (name : String) : Bool :=
  name.utf8ByteSize ≤ greatestName && !name.toList.contains '\x00'

/-- How many bytes a path has at most. -/
def greatestPath : Nat := 4095

/-- Whether a path is short enough to be followed. -/
def isFollowed (path : String) : Bool := path.utf8ByteSize ≤ greatestPath

/-- Where a part of a path leads from a place.  The root is its own parent. -/
def step? (t : FileTree) (place : Place) (part : String) : Option Place :=
  if t.entry place ≠ some .directory then none
  else if Files.staysPut part then some place
  else if part = ".." then some place.dropLast
  else if isName part then some (place ++ [part])
  else none

/-- Where a path starts. -/
def start (t : FileTree) (path : String) : Place := if Files.isAbsolute path then [] else t.here

/-- Where a path leads. -/
def find? (t : FileTree) (path : String) : Option Place :=
  if path = "" ∨ !isFollowed path then none
  else (Files.parts path).foldlM t.step? (t.start path)

/-- Follows parts of a path from a place, and makes the directories that are missing. -/
def makeDirectories? (t : FileTree) (place : Place) : List String → Option FileTree
  | [] => some t
  | part :: parts => do
    let next ← t.step? place part
    match t.entry next with
    | some .directory => t.makeDirectories? next parts
    | some (.file _) => none
    | none => (t.put next .directory).makeDirectories? next parts

/-- Makes the directories that lead to a path.  Only what leads there has to be short enough
to be followed, so a path that is too long can have its directories. -/
def makeWay? (t : FileTree) (path : String) : Option FileTree :=
  if isFollowed (Files.directory path) then t.makeDirectories? (t.start path) (Files.way path)
  else none

/-- Whether anything is at a path. -/
def contains (t : FileTree) (path : String) : Bool := ((t.find? path).bind t.entry).isSome

/-- Writes a file anew. -/
def write? (t : FileTree) (path : String) (bytes : List UInt8) : Option FileTree := do
  let place ← t.find? path
  if t.entry place = some .directory then none else return t.put place (.file bytes)

/-- The bytes of a file. -/
def read? (t : FileTree) (path : String) : Option (List UInt8) := do
  match ← t.entry (← t.find? path) with
  | .directory => none
  | .file bytes => return bytes

/-- Answers a request. -/
def answer : {β : Type} → FileRequest β → FileTree → β × FileTree
  | _, .makeWay path, t => ((t.makeWay? path).isSome, (t.makeWay? path).getD t)
  | _, .exists path, t => (t.contains path, t)
  | _, .write path text, t =>
    let written := t.write? path (Text.Utf8.encode text)
    (written.isSome, written.getD t)
  | _, .read path, t => (t.read? path, t)

end FileTree
end DrawStream
