import TagWire.Text.Shown

/-
  This file defines why a file could not be read or written.

  Key definitions include:
    * `FileError`
    * `FileError.message`
    * `FileError.inspect`
-/

namespace TagWire

open Text

/- The reasons for which an action on files fails. -/
inductive FileError where
/- Nothing stands at the path. -/
| notFound
/- Something else stands where a directory would be made. -/
| alreadyExists
/- A file stands where a directory is needed. -/
| notADirectory
/- A directory stands where a file is needed. -/
| isADirectory
/- A name or a whole path has too many bytes. -/
| nameTooLong
/- A path holds the character with the number zero. -/
| unexpectedNul
/- The bytes of a text file are not UTF-8. -/
| invalidText
/- Any other reason that the system gives. -/
| other (code : Nat) (reason : String)
deriving DecidableEq, Repr

namespace FileError

/- The number by which the system knows a reason. -/
def code? : FileError → Option Nat
| notFound => some 2
| alreadyExists => some 17
| notADirectory => some 20
| isADirectory => some 21
| nameTooLong => some 36
| unexpectedNul => none
| invalidText => none
| other code _ => some code

/- The name of a reason. -/
def kind : FileError → String
| notFound => "NotFound"
| alreadyExists => "AlreadyExists"
| notADirectory => "NotADirectory"
| isADirectory => "IsADirectory"
| nameTooLong => "InvalidFilename"
| unexpectedNul => "InvalidInput"
| invalidText => "InvalidData"
| other _ _ => "Uncategorized"

/- What the system says of a reason. -/
def reason : FileError → String
| notFound => "No such file or directory"
| alreadyExists => "File exists"
| notADirectory => "Not a directory"
| isADirectory => "Is a directory"
| nameTooLong => "File name too long"
| unexpectedNul =>
    "file name contained an unexpected NUL byte"
| invalidText => "stream did not contain valid UTF-8"
| other _ reason => reason

/- The description of a reason. -/
def message
    (e : FileError) :
    String :=
  match e.code? with
  | some code => s!"{e.reason} (os error {code})"
  | none => e.reason

/- A reason as a diagnostic shows it. -/
def inspect
    (e : FileError) :
    String :=
  let parts :=
    [("kind", e.kind), ("message", Text.inspect e.reason)]
  match e.code? with
  | some code =>
      shownParts "Os" (("code", toString code) :: parts)
  | none => shownParts "Error" parts

end FileError

end TagWire
