/-!
A file tree as the program sees it, and paths into it. Directories list their entries in some order
of their own; nothing here changes the tree. A path is a text: it is absolute when it begins with a
slash, and otherwise leads from the working directory. Links are left out, so that what a name leads
to is settled by the name; so are permissions, and entries that are neither files nor directories.
-/

namespace TextCompletion

abbrev Bytes := List UInt8

inductive FileNode where
  | file (content : Bytes)
  | directory (entries : List (String × FileNode))

inductive OsError where
  | noEntry
  | noDevice
  | notDirectory
  | isDirectory
  | invalidArgument
  | nameTooLong
  | nulInName
  deriving DecidableEq, Repr

def OsError.message : OsError → String
  | .noEntry => "No such file or directory (os error 2)"
  | .noDevice => "No such device (os error 19)"
  | .notDirectory => "Not a directory (os error 20)"
  | .isDirectory => "Is a directory (os error 21)"
  | .invalidArgument => "Invalid argument (os error 22)"
  | .nameTooLong => "File name too long (os error 36)"
  | .nulInName => "file name contained an unexpected NUL byte"

namespace FilePath

def isAbsolute (path : String) : Bool := path.toList.head? == some '/'

/-- The path of `name` seen from `directory`. An absolute name stands for itself. -/
def join (directory name : String) : String :=
  if isAbsolute name then name
  else if directory.isEmpty || directory.toList.getLast? == some '/' then directory ++ name
  else directory ++ "/" ++ name

def parts : List Char → List Char → List String
  | [], current => [String.ofList current.reverse]
  | c :: cs, current =>
    if c = '/' then String.ofList current.reverse :: parts cs [] else parts cs (c :: current)

/-- What follows the last point of a file name, unless that point begins the name. -/
def extension? (name : String) : Option String :=
  if name = ".." then none
  else
    let back := name.toList.reverse
    match back.dropWhile (· != '.') with
    | [] => none
    | _ :: stem =>
      if stem.isEmpty then none else some (String.ofList (back.takeWhile (· != '.')).reverse)

/-- The parts of a path from the root, without those that lead nowhere. -/
def fromRoot (workingDirectory path : String) : List String :=
  let all := if isAbsolute path then parts path.toList [] else
    parts workingDirectory.toList [] ++ parts path.toList []
  all.foldl (fun above part =>
    if part = "" ∨ part = "." then above
    else if part = ".." then above.dropLast
    else above ++ [part]) []

end FilePath

/-- A node put at a path below another one; directories on the way are made. An empty directory
changes nothing where a directory is. -/
def FileNode.insert (node : FileNode) : List String → FileNode → FileNode
  | [], old =>
    match node, old with
    | .directory [], .directory entries => .directory entries
    | _, _ => node
  | part :: rest, old =>
    let entries := match old with | .directory entries => entries | .file _ => []
    let inner := (entries.lookup part).getD (.directory [])
    .directory ((part, node.insert rest inner) :: entries.filter fun e => e.1 != part)

structure FileTree where
  root : FileNode
  workingDirectory : String := "/"

namespace FileTree

def maxNameLength : Nat := 255
def maxPathLength : Nat := 4095

/-- Follows the parts of a path. `parents` holds the directories above `here`, the nearest first;
the topmost directory is its own parent. Empty parts and `.` stay, and need a directory. -/
def follow : FileNode → List FileNode → List String → Except OsError (FileNode × List FileNode)
  | here, parents, [] => .ok (here, parents)
  | .file _, _, _ :: _ => .error .notDirectory
  | .directory entries, parents, part :: rest =>
    if part = "" ∨ part = "." then follow (.directory entries) parents rest
    else if part = ".." then
      match parents with
      | [] => follow (.directory entries) [] rest
      | parent :: above => follow parent above rest
    else if maxNameLength < part.utf8ByteSize then .error .nameTooLong
    else
      match entries.find? fun e => e.1 == part with
      | none => .error .noEntry
      | some (_, node) => follow node (.directory entries :: parents) rest

def lookup (t : FileTree) (path : String) : Except OsError FileNode := do
  if path.toList.contains '\x00' then throw .nulInName
  if path.isEmpty then throw .noEntry
  if maxPathLength < path.utf8ByteSize then throw .nameTooLong
  let (start, parents) ←
    if FilePath.isAbsolute path then pure (t.root, [])
    else follow t.root [] (FilePath.parts t.workingDirectory.toList [])
  let (node, _) ← follow start parents (FilePath.parts path.toList [])
  pure node

def exists? (t : FileTree) (path : String) : Bool :=
  match t.lookup path with
  | .ok _ => true
  | .error _ => false

def isDirectory (t : FileTree) (path : String) : Bool :=
  match t.lookup path with
  | .ok (.directory _) => true
  | _ => false

def read (t : FileTree) (path : String) : Except OsError Bytes := do
  match ← t.lookup path with
  | .file content => pure content
  | .directory _ => throw .isDirectory

def list (t : FileTree) (path : String) : Except OsError (List String) := do
  match ← t.lookup path with
  | .file _ => throw .notDirectory
  | .directory entries => pure (entries.map Prod.fst)

end FileTree
end TextCompletion
