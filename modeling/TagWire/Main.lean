import TagWire.Command.Basic

/-
  This file defines the program: it takes a command from the
  words of the command line and does it on the files of the
  system.
-/

namespace TagWire

/- The reason of a failed action of the system. -/
def FileError.ofSystem : IO.Error → FileError
| .noFileOrDirectory .. => .notFound
| .alreadyExists .. => .alreadyExists
| .inappropriateType _ 21 _ => .isADirectory
| .inappropriateType .. => .notADirectory
| .invalidArgument _ 36 _ => .nameTooLong
| .permissionDenied _ code reason => .other code.toNat reason
| .otherError code reason => .other code.toNat reason
| e => .other 0 (toString e)

/- Do an action of the system, and report how it failed. -/
def attempt
    {α : Type}
    (action : IO α) :
    IO (Except FileError α) := do
  match ← action.toBaseIO with
  | .ok a => return .ok a
  | .error e => return .error (.ofSystem e)

/- The files of the system. -/
instance : FileStore IO where
  read path :=
    attempt do
      let content ← IO.FS.readBinFile path
      return content.toList
  write path content :=
    attempt (IO.FS.writeBinFile path ⟨content.toArray⟩)
  isDirectory path := do
    let content ← attempt (IO.FS.readBinFile path)
    return match content with
    | .error .isADirectory => true
    | _ => false
  createDirectory path :=
    attempt (IO.FS.createDir path)

/- What is said of words that make no command. -/
def usage : String :=
  "usage: dgen [-v] generate -f FILE [-l LANGUAGE] " ++
    "[-o DIRECTORY] [-e ENCODING]\n" ++
    "       dgen [-v] parse -f FILE\n" ++
    "       dgen [-v] decode -f FILE -m MESSAGE -i FILE"

/- Do what the words say. The result is the exit code. -/
def runWords
    (words : List String) :
    IO UInt32 := do
  match Command.ofWords? words with
  | none => do
      IO.eprintln usage
      return 2
  | some command => do
      let action : ExceptT Error IO String := command.execute
      match ← action.run with
      | .ok output => do
          IO.print output
          return 0
      | .error e => do
          IO.eprintln s!"Error: {e.inspect}"
          return 1

end TagWire

/- The program. -/
def main
    (words : List String) :
    IO UInt32 :=
  TagWire.runWords words
