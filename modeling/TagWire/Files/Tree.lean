import TagWire.Files.Error
import TagWire.Files.Path
import TagWire.Keyed

/-
  This file defines a tree of files as a value, with the
  actions that a file system offers on it.

  Key definitions include:
    * `FileTree`
    * `FileTree.start`
    * `FileTree.locate`
    * `FileTree.read`
    * `FileTree.write`
    * `FileTree.createDirectory`
    * `FileTree.changes`
-/

namespace TagWire

/- What can stand at a place in a tree. -/
inductive FileNode where
| directory
| file (content : List UInt8)
deriving DecidableEq, Repr

/-
  The nodes below one directory, each with the names on the
  way to it.
-/
structure FileTree where
  nodes : List (List String × FileNode)
deriving DecidableEq, Repr

namespace FileTree

------------------------------------------------------------
-- Nodes
------------------------------------------------------------

/- The tree in which there is nothing. -/
def empty : FileTree :=
  ⟨[]⟩

/- Whether a place is the top of the tree or lies above it. -/
def isAbove
    (place : List String) :
    Bool :=
  place.all (· == "..")

/- What stands at a place. The top lies in directories. -/
def node?
    (t : FileTree)
    (place : List String) :
    Option FileNode :=
  if isAbove place then
    some .directory
  else
    t.nodes.lookup place

/- Put a node at a place, instead of what stood there. -/
def put
    (t : FileTree)
    (place : List String)
    (node : FileNode) :
    FileTree :=
  ⟨(place, node) :: t.nodes.filter (fun n => n.1 ≠ place)⟩

/- Whether a directory stands at a place. -/
def isDirectory
    (t : FileTree)
    (place : List String) :
    Bool :=
  t.node? place == some .directory

------------------------------------------------------------
-- Places
------------------------------------------------------------

/- The most bytes that a name can have. -/
def nameLimit : Nat :=
  255

/- The most bytes that a path can have. -/
def pathLimit : Nat :=
  4095

/- Go one part further, which only a directory allows. -/
def enter
    (t : FileTree)
    (place : List String)
    (part : String) :
    Except FileError (List String) :=
  match t.node? place with
  | none => .error .notFound
  | some (.file _) => .error .notADirectory
  | some .directory =>
      if part = "" ∨ part = "." then
        .ok place
      else if part = ".." then
        .ok
          (if isAbove place then
            place ++ [".."]
          else
            place.dropLast)
      else if nameLimit < part.utf8ByteSize then
        .error .nameTooLong
      else
        .ok (place ++ [part])

/-
  The place where a path starts. The top of all files counts as
  a directory above the tree, in which nothing else is known.
  Some paths start nowhere, whatever the tree is.
-/
def start
    (path : String) :
    Except FileError (List String) :=
  if path.toList.contains (Char.ofNat 0) then
    .error .unexpectedNul
  else if path = "" then
    .error .notFound
  else if pathLimit < path.utf8ByteSize then
    .error .nameTooLong
  else
    .ok (if Path.isAbsolute path then [".."] else [])

/- The place of a path, which is followed part by part. -/
def locate
    (t : FileTree)
    (path : String) :
    Except FileError (List String) := do
  (Path.split path).foldlM t.enter (← start path)

------------------------------------------------------------
-- Actions
------------------------------------------------------------

/- The content of a file. -/
def read
    (t : FileTree)
    (path : String) :
    Except FileError (List UInt8) := do
  let place ← t.locate path
  match t.node? place with
  | none => .error .notFound
  | some .directory => .error .isADirectory
  | some (.file content) => .ok content

/- Make a file, or give one its content. -/
def write
    (t : FileTree)
    (path : String)
    (content : List UInt8) :
    Except FileError FileTree := do
  let place ← t.locate path
  if t.isDirectory place then
    .error .isADirectory
  else
    .ok (t.put place (.file content))

/- Whether a path leads to a directory. -/
def leadsToDirectory
    (t : FileTree)
    (path : String) :
    Bool :=
  match t.locate path with
  | .ok place => t.isDirectory place
  | .error _ => false

/- Make a directory in one that is there already. -/
def createDirectory
    (t : FileTree)
    (path : String) :
    Except FileError FileTree := do
  let place ← (Path.parts path).foldlM t.enter (← start path)
  match t.node? place with
  | some _ => .error .alreadyExists
  | none => .ok (t.put place .directory)

------------------------------------------------------------
-- Building and Comparing
------------------------------------------------------------

/- Put a file at a place, with the directories above it. -/
def addFile
    (t : FileTree)
    (path : String)
    (content : List UInt8) :
    FileTree :=
  let place := Path.components path
  let above :=
    (List.range place.length).filterMap fun n =>
      if n = 0 then none else some (place.take n)
  (above.foldl (fun t p => t.put p .directory) t).put place
    (.file content)

/- The tree of some files. -/
def ofFiles
    (files : List (String × List UInt8)) :
    FileTree :=
  files.foldl (fun t f => t.addFile f.1 f.2) empty

/-
  The files below the top that are new or have another content
  than before, in ascending order of their paths.
-/
def changes
    (before after : FileTree) :
    List (String × List UInt8) :=
  Keyed.ofList
    (after.nodes.filterMap fun (place, node) =>
      match node with
      | .directory => none
      | .file content =>
          if place.head? = some ".." ∨
              before.node? place = some (.file content) then
            none
          else
            some ("/".intercalate place, content))

end FileTree

end TagWire
