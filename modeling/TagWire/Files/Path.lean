/-
  This file defines the parts of file paths, which are
  separated by slashes.

  Key definitions include:
    * `Path.split`
    * `Path.parts`
    * `Path.components`
    * `Path.ancestors`
    * `Path.fileName?`
    * `Path.join`
-/

namespace TagWire

namespace Path

/- Split characters at slashes. -/
def splitChars : List Char → List (List Char)
| [] => [[]]
| c :: cs =>
    if c = '/' then
      [] :: splitChars cs
    else
      match splitChars cs with
      | [] => [[c]]
      | part :: rest => (c :: part) :: rest

/- The texts between the slashes of a path. -/
def split
    (path : String) :
    List String :=
  (splitChars path.toList).map String.ofList

/- Whether a path starts at the top of all files. -/
def isAbsolute
    (path : String) :
    Bool :=
  path.toList.head? == some '/'

/- The parts of a path that are not empty. -/
def parts
    (path : String) :
    List String :=
  (split path).filter (· ≠ "")

/-
  The parts of a path without the single points, which stand
  for the directory before them. At the start one is kept.
-/
def components
    (path : String) :
    List String :=
  match parts path with
  | [] => []
  | first :: rest => first :: rest.filter (· ≠ ".")

/- The paths above the given parts, which stand last first. -/
def ancestorsOfParts
    (top : String) :
    List String → List String
| [] => []
| [_] => []
| _ :: name :: above =>
    (top ++ "/".intercalate (name :: above).reverse) ::
      ancestorsOfParts top (name :: above)

/- The paths above a path, the nearest first. -/
def ancestors
    (path : String) :
    List String :=
  ancestorsOfParts (if isAbsolute path then "/" else "")
    (components path).reverse

/- The last part of a path, if it is a name. -/
def fileName?
    (path : String) :
    Option String :=
  match (components path).getLast? with
  | none => none
  | some "." => none
  | some ".." => none
  | some name => some name

/- The path of a name in a directory. -/
def join
    (directory name : String) :
    String :=
  match directory.toList.getLast? with
  | none => name
  | some '/' => directory ++ name
  | some _ => directory ++ "/" ++ name

end Path

end TagWire
