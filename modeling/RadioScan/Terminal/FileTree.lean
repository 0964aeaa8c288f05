import RadioScan.Terminal.SystemError

/-!
# File trees

Files stand in directories, and directories in directories. A path is walked one name at a time
from where one stands, or from the root if it begins with a slash; it may lead back up. Only a
directory can be walked through, so that a slash behind a file's name is an error.
-/

namespace RadioScan.Terminal

/-- What a name in a directory stands for. -/
inductive Entry
  | file (content : String)
  | directory (entries : List (String × Entry))

/-- Puts a file where the given names lead, into new directories where there are none. -/
def Entry.put (content : String) : List String → Entry → Entry
  | [], _ => file content
  | name :: names, directory entries =>
    let old := (entries.lookup name).getD (directory [])
    directory ((name, put content names old) :: entries)
  | _ :: _, file old => file old

/-- An entry with the directories that it stands in, the nearest first. -/
structure Place where
  entry : Entry
  above : List Entry

namespace Place

/-- The most bytes that a name in a path has. -/
def maxNameSize : Nat := 255

/-- The most bytes that a path has. -/
def maxPathSize : Nat := 4095

def root (p : Place) : Place :=
  match p.above.getLast? with
  | some e => ⟨e, []⟩
  | none => p

/-- Follows one name. An empty one and a dot stay, two dots go up; there is nothing above the
root. -/
def follow (p : Place) (name : String) : Except SystemError Place :=
  match p.entry with
  | .file _ => .error .notDirectory
  | .directory entries =>
    if name = "" ∨ name = "." then .ok p
    else if name = ".." then
      match p.above with
      | [] => .ok p
      | e :: above => .ok ⟨e, above⟩
    else if maxNameSize < name.utf8ByteSize then .error .nameTooLong
    else
      match entries.lookup name with
      | some e => .ok ⟨e, p.entry :: p.above⟩
      | none => .error .notFound

/-- Where a path leads. -/
def locate (p : Place) (path : String) : Except SystemError Place :=
  if path = "" then .error .notFound
  else if maxPathSize < path.utf8ByteSize then .error .nameTooLong
  else (path.splitOn "/").foldlM follow (if path.startsWith "/" then p.root else p)

/-- The content of the file that a path leads to. -/
def read (p : Place) (path : String) : Except SystemError String := do
  match (← p.locate path).entry with
  | .file content => return content
  | .directory _ => throw .isDirectory

end Place

end RadioScan.Terminal
