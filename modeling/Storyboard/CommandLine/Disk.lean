import Storyboard.Failure
import Storyboard.Text.Blank

/-!
# Disks

A disk tells what reading a path gives. `Disk.ofFiles` is the disk of a directory tree that holds
the given files and nothing else.
-/

namespace Storyboard.CommandLine

/-- What reading a path gives. -/
structure Disk where
  read : String → Except FileError String

namespace Disk

/-- Whether there is something at a path, even if it cannot be read. -/
def isPresent (d : Disk) (path : String) : Bool :=
  match d.read path with
  | .ok _ | .error .isDirectory | .error (.other _) => true
  | .error _ => false

/-! ### Directory trees -/

/-- The parts of a path between slashes. -/
def parts (path : String) : List String :=
  (Text.splitWhere (· = '/') path.toList).map String.ofList

/-- The longest name of a file or directory, in bytes. -/
def maxNameLength : Nat := 255

/-- The longest path, in bytes. -/
def maxPathLength : Nat := 4095

/-- A place in a directory tree. -/
inductive Place where
  /-- The place with these parts below the working directory, the innermost first. -/
  | inside (parts : List String)
  /-- A directory that the working directory is not part of, or that it is part of. -/
  | outside
  deriving DecidableEq, Repr

/-- The tree below a working directory. A place is given by the names that lead to it, the
innermost first. -/
structure Tree where
  directories : List (List String) := [[]]
  files : List (List String × String) := []
  deriving Repr

namespace Tree

def hasDirectory (t : Tree) (place : List String) : Bool :=
  t.directories.contains place

/-- The tree with a file at the end of a path. Directories on the way come about by need. -/
def add (t : Tree) (text : String) : (place : List String) → (parts : List String) → Tree
  | _, [] => t
  | place, [name] => { t with files := (name :: place, text) :: t.files }
  | place, "" :: parts | place, "." :: parts => t.add text place parts
  | place, ".." :: parts => t.add text place.tail parts
  | place, name :: parts =>
    { t with directories := (name :: place) :: t.directories }.add text (name :: place) parts

/-- Goes one part of a path further. -/
def enter (t : Tree) (place : Place) (part : String) : Except FileError Place :=
  let long := maxNameLength < part.utf8ByteSize
  match place with
  | .outside =>
    if part ∈ ["", ".", ".."] then .ok .outside
    else .error (if long then .nameTooLong else .notFound)
  | .inside parts =>
    if t.hasDirectory parts then
      match part, parts with
      | "", _ | ".", _ => .ok place
      | "..", [] => .ok .outside
      | "..", _ :: rest => .ok (.inside rest)
      | part, parts => if long then .error .nameTooLong else .ok (.inside (part :: parts))
    else .error (if (t.files.lookup parts).isSome then .notDirectory else .notFound)

/-- What there is to read at a place. -/
def readPlace (t : Tree) : Place → Except FileError String
  | .outside => .error .isDirectory
  | .inside parts =>
    match t.files.lookup parts with
    | some text => .ok text
    | none => .error (if t.hasDirectory parts then .isDirectory else .notFound)

def read (t : Tree) (path : String) : Except FileError String :=
  if path.toList.contains '\x00' then .error .nulInName
  else if path = "" then .error .notFound
  else if maxPathLength < path.utf8ByteSize then .error .nameTooLong
  else do
    let start := if path.startsWith "/" then Place.outside else .inside []
    t.readPlace (← (parts path).foldlM t.enter start)

end Tree

/-- The disk of a directory tree that holds these files, by their paths. Of two paths to the same
place the last one counts. -/
def ofFiles (files : List (String × String)) : Disk :=
  ⟨(files.foldl (fun t (path, text) => t.add text [] (parts path)) ({} : Tree)).read⟩

end Disk

end Storyboard.CommandLine
