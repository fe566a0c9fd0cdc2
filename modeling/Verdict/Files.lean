namespace Verdict

-- Why a file cannot be read.
inductive FileError
  | missing
  | directory
  | notDirectory
  | other (message : String)

def FileError.message : FileError → String
  | .missing => "No such file or directory (os error 2)"
  | .directory => "Is a directory (os error 21)"
  | .notDirectory => "Not a directory (os error 20)"
  | .other message => message

-- The files below one directory, each under the names that lead to it.
structure Files where
  entries : List (List String × String)

namespace Files

def pathParts (path : String) : List String :=
  (path.toList.splitOn '/').map String.ofList

-- Files from their paths and texts.
def ofList (files : List (String × String)) : Files :=
  ⟨files.map fun (path, text) => (pathParts path, text)⟩

def file? (files : Files) (place : List String) : Option String :=
  (files.entries.find? (·.1 = place)).map (·.2)

def isDirectory (files : Files) (place : List String) : Bool :=
  place = [] || files.entries.any fun entry => place.isPrefixOf entry.1 && place ≠ entry.1

-- What names lead to beyond the directory, of which nothing is known: only the directories on the
-- way up.
def readOutside (names : List String) : Except FileError String :=
  if names.all (· ∈ ["", ".", ".."]) then .error .directory else .error .missing

-- Follows names from a place. An empty name and a dot stay there, and two dots lead back up.
def follow (files : Files) (place : List String) : List String → Except FileError String
  | [] => .error .directory
  | name :: rest =>
    if name = "" ∨ name = "." then files.follow place rest
    else if name = ".." then
      if place = [] then readOutside rest else files.follow place.dropLast rest
    else
      let next := place ++ [name]
      match files.file? next with
      | some text => if rest = [] then .ok text else .error .notDirectory
      | none => if files.isDirectory next then files.follow next rest else .error .missing

-- The text of the file at a path. A path that starts with a slash leads away from the directory.
def read (files : Files) (path : String) : Except FileError String :=
  match pathParts path with
  | [""] => .error .missing
  | "" :: names => readOutside names
  | names => files.follow [] names

end Files

end Verdict
