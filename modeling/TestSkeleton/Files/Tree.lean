import TestSkeleton.Files.Fault
import TestSkeleton.Path.Parts

/-!
# File trees

A tree of directories and files without links.  A place in it is the list of
names that lead to it from the root, and a path is followed name by name:
every place but the last has to be a directory that exists.

* `Tree.locate` follows a path to something that exists.
* `Tree.locateNew` follows a path to a name in a directory that exists; the
  name itself may be free.
* The rest are the operations on files and directories with their faults.
-/

namespace TestSkeleton.Files

/-- A place in a tree: the names from the root. -/
abbrev Place := List String

/-- What a place holds. -/
inductive Node where
  | file (content : ByteArray)
  | directory
deriving Inhabited

/-- The places in use, without the root, which is always a directory. -/
structure Tree where
  nodes : List (Place × Node) := []
deriving Inhabited

namespace Tree

/-- What a place holds, if it is in use. -/
def node? (tree : Tree) (place : Place) : Option Node :=
  if place = [] then some .directory else tree.nodes.lookup place

/-- Whether a place is a directory. -/
def isDirectory (tree : Tree) (place : Place) : Bool :=
  match tree.node? place with
  | some .directory => true
  | _ => false

/-- The tree without a place. -/
def erase (tree : Tree) (place : Place) : Tree :=
  ⟨tree.nodes.filter (fun node => node.1 != place)⟩

/-- The tree with a new node at a place. -/
def put (tree : Tree) (place : Place) (node : Node) : Tree :=
  ⟨(tree.erase place).nodes ++ [(place, node)]⟩

/-! ## Following a path -/

/-- The longest name, in bytes. -/
def maxName : Nat := 255

/-- The longest path, in bytes. -/
def maxPath : Nat := 4095

/-- Whether the system takes a text as a path at all. -/
def checkPath (path : String) : Except Fault Unit :=
  if path.toList.contains '\x00' then .error .holdsNul
  else if path.isEmpty then .error .missing
  else if maxPath < path.utf8ByteSize then .error .tooLong
  else .ok ()

/-- Goes from a place through one segment of a path. -/
def enter (tree : Tree) (place : Place) (segment : String) : Except Fault Place :=
  if !tree.isDirectory place then .error .throughFile
  else if Path.isVoid segment then .ok place
  else if segment == ".." then .ok place.dropLast
  else if maxName < segment.utf8ByteSize then .error .tooLong
  else if (tree.node? (place ++ [segment])).isSome then .ok (place ++ [segment])
  else .error .missing

/-- Goes from a place through some segments. -/
def follow (tree : Tree) (place : Place) (segments : List String) : Except Fault Place :=
  segments.foldlM tree.enter place

/-- The place where a path starts, seen from the directory `current`. -/
def startOf (current : Place) (path : String) : Place :=
  if Path.isAbsolute path then [] else current

/-- The place that a path names. -/
def locate (tree : Tree) (current : Place) (path : String) : Except Fault Place := do
  checkPath path
  tree.follow (startOf current path) (Path.segments path)

/-- A name in a directory that exists. -/
structure NewPlace where
  parent : Place
  /-- The name, or nothing for the root, `.` and `..`. -/
  name? : Option String
  /-- Whether the path goes on with a slash. -/
  slash : Bool
deriving DecidableEq, Inhabited, Repr

/-- The directory and the name that a path leads to. -/
def locateNew (tree : Tree) (current : Place) (path : String) : Except Fault NewPlace := do
  checkPath path
  let segments := (Path.segments path).filter (fun segment => !segment.isEmpty)
  let parent ← tree.follow (startOf current path) segments.dropLast
  if !tree.isDirectory parent then .error .throughFile
  else
    match segments.getLast? with
    | none => .ok ⟨parent, none, false⟩
    | some name =>
      if name == "." || name == ".." then .ok ⟨parent, none, false⟩
      else .ok ⟨parent, some name, Path.endsWithSlash path⟩

/-! ## Operations -/

/-- Whether a path names something. -/
def contains (tree : Tree) (current : Place) (path : String) : Bool :=
  (tree.locate current path).toBool

/-- Whether a path names a directory. -/
def isDirectoryAt (tree : Tree) (current : Place) (path : String) : Bool :=
  match tree.locate current path with
  | .ok place => tree.isDirectory place
  | .error _ => false

/-- The content of the file that a path names. -/
def read (tree : Tree) (current : Place) (path : String) : Except Fault ByteArray := do
  let place ← tree.locate current path
  match tree.node? place with
  | some (.file content) => .ok content
  | some .directory => .error .directory
  | none => .error .missing

/-- Creates one directory. -/
def createDir (tree : Tree) (current : Place) (path : String) : Except Fault Tree := do
  let target ← tree.locateNew current path
  match target.name? with
  | none => .error .taken
  | some name =>
    let place := target.parent ++ [name]
    if maxName < name.utf8ByteSize then .error .tooLong
    else if (tree.node? place).isSome then .error .taken
    else .ok (tree.put place .directory)

/-- Creates a directory after the directories on the way to it, of which at
most `depth` are missing.  What was created before a fault stays. -/
def createDirsWithin (current : Place) : Nat → String → Tree → Except Fault Unit × Tree
  | 0, _, tree => (.error .missing, tree)
  | depth + 1, path, tree =>
    if path.isEmpty then (.ok (), tree)
    else
      match tree.createDir current path with
      | .ok tree => (.ok (), tree)
      | .error fault =>
        if fault.kind == .notFound then
          match Path.parent? path with
          | none => (.error fault, tree)
          | some parent =>
            match createDirsWithin current depth parent tree with
            | (.error fault, tree) => (.error fault, tree)
            | (.ok (), tree) =>
              match tree.createDir current path with
              | .ok tree => (.ok (), tree)
              | .error fault =>
                (if tree.isDirectoryAt current path then .ok () else .error fault, tree)
        else (if tree.isDirectoryAt current path then .ok () else .error fault, tree)

/-- Creates a directory and the directories on the way to it. -/
def createDirs (tree : Tree) (current : Place) (path : String) : Except Fault Unit × Tree :=
  createDirsWithin current ((Path.segments path).length + 1) path tree

/-- The place of a file that is opened for writing: a free name, or a file
that exists. -/
def openPlace (tree : Tree) (current : Place) (path : String) : Except Fault Place := do
  let target ← tree.locateNew current path
  match target.name? with
  | none => .error .directory
  | some name =>
    let place := target.parent ++ [name]
    if target.slash then .error .directory
    else if maxName < name.utf8ByteSize then .error .tooLong
    else if tree.isDirectory place then .error .directory
    else .ok place

/-- Creates or replaces a file. -/
def write (tree : Tree) (current : Place) (path : String) (content : ByteArray) :
    Except Fault Tree := do
  let place ← tree.openPlace current path
  .ok (tree.put place (.file content))

/-- The place of the file that a path names. -/
def filePlace (tree : Tree) (current : Place) (path : String) : Except Fault Place := do
  let place ← tree.locate current path
  if tree.isDirectory place then .error .directory else .ok place

/-- The place that a file takes when it is renamed: a free name, or the name
of a file. -/
def renamePlace (tree : Tree) (current : Place) (path : String) : Except Fault Place := do
  let target ← tree.locateNew current path
  match target.name? with
  | none => .error .inUse
  | some name =>
    let place := target.parent ++ [name]
    if maxName < name.utf8ByteSize then .error .tooLong
    else if target.slash then .error .throughFile
    else if tree.isDirectory place then .error .directory
    else .ok place

/-- Moves the node at one place to another. -/
def move (tree : Tree) (source target : Place) : Tree :=
  match tree.node? source with
  | some node => (tree.erase source).put target node
  | none => tree

end Tree

end TestSkeleton.Files
