import DrawStream.Dialogue

/-! # Files

What a program asks of files is a question family like that of a device, so the settings
and the replay are dialogues with files, and are held with real files or with a file tree
alike. -/
namespace DrawStream

/-- A request to files, with the type of its answer.  Paths have their parts between
slashes. -/
inductive FileRequest : Type → Type
  /-- Make the directories that lead to a path; says whether they are there. -/
  | makeWay (path : String) : FileRequest Bool
  | exists (path : String) : FileRequest Bool
  /-- Write a file anew; says whether that was possible. -/
  | write (path text : String) : FileRequest Bool
  /-- The bytes of a file, if it can be read. -/
  | read (path : String) : FileRequest (Option (List UInt8))

namespace Files

/-- The parts of a path, with the empty ones. -/
def split : List Char → List (List Char)
  | [] => [[]]
  | c :: cs =>
    match split cs with
    | [] => [[c]]
    | part :: parts => if c = '/' then [] :: part :: parts else (c :: part) :: parts

/-- Whether a path starts from the root of all files. -/
def isAbsolute (path : String) : Bool := path.toList.head? == some '/'

/-- The parts of a path, as they are followed one by one. -/
def parts (path : String) : List String := (split path.toList).map String.ofList

/-- A part that leads nowhere else. -/
def staysPut (part : String) : Bool := part == "" || part == "."

/-- The text of a path without its last part, and without the parts before that one which
lead nowhere else. -/
def directory (path : String) : String :=
  let named := (parts path).reverse.dropWhile staysPut
  "/".intercalate ((named.drop 1).dropWhile staysPut).reverse

/-- The parts of a path that lead to the directory of what it names. -/
def way (path : String) : List String :=
  (parts (directory path)).filter fun part => !staysPut part

end Files
end DrawStream
