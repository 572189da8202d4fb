import TagWire.Files.Tree

/-
  This file defines what a program needs of a place where
  files are kept, and the tree of files as such a place.

  Key definitions include:
    * `FileStore`
    * `createDirectories`
-/

namespace TagWire

------------------------------------------------------------
-- Stores
------------------------------------------------------------

/- The actions on files, most of which can fail. -/
class FileStore (m : Type → Type) where
  read : String → m (Except FileError (List UInt8))
  write : String → List UInt8 → m (Except FileError Unit)
  isDirectory : String → m Bool
  createDirectory : String → m (Except FileError Unit)

/- A tree of files that is kept as a state. -/
instance : FileStore (StateM FileTree) where
  read path := do
    let t ← get
    return t.read path
  write path content := do
    let t ← get
    match t.write path content with
    | .ok t' => do
        set t'
        return .ok ()
    | .error e => return .error e
  isDirectory path := do
    let t ← get
    return t.leadsToDirectory path
  createDirectory path := do
    let t ← get
    match t.createDirectory path with
    | .ok t' => do
        set t'
        return .ok ()
    | .error e => return .error e

------------------------------------------------------------
-- Directories
------------------------------------------------------------

section Directories

variable {m : Type → Type} [Monad m] [FileStore m]

/- Make a directory, unless there is one already. -/
def ensureDirectory
    (path : String) :
    m (Except FileError Unit) := do
  match ← FileStore.createDirectory path with
  | .ok _ => return .ok ()
  | .error e => do
      let isThere ← FileStore.isDirectory path
      return if isThere then .ok () else .error e

/-
  Make a directory, and if there is none above it that one
  first. The list holds the paths above, the nearest first.
-/
def ensureBelow
    (path : String) :
    List String → m (Except FileError Unit)
| [] => ensureDirectory path
| parent :: above => do
    match ← ensureDirectory path with
    | .error .notFound => do
        match ← ensureBelow parent above with
        | .ok _ => ensureDirectory path
        | .error e => return .error e
    | done => return done

/-
  Make the directory of a path with all that are missing above
  it. What was made stays there even if the rest fails. The
  empty path stands for the directory that is there already.
-/
def createDirectories
    (path : String) :
    m (Except FileError Unit) :=
  if path = "" then
    return .ok ()
  else
    ensureBelow path (Path.ancestors path)

end Directories

end TagWire
