import TagWire.Command.Arguments
import TagWire.Generate
import TagWire.Schema.Json
import TagWire.Value.Decode
import TagWire.Value.Json

/-
  This file defines the commands of the program: what they
  need to know, how they are given, and what they do.

  Key definitions include:
    * `Command`
    * `Command.ofWords?`
    * `Command.execute`
-/

namespace TagWire

/- The commands of the program. -/
inductive Command where
/- Generate code from a schema file. -/
| generate (config : GenerateConfig)
/- Print a schema as JSON. -/
| parse (file : String)
/- Print an encoded message as JSON. -/
| decode (file : String) (message : String) (input : String)
deriving DecidableEq, Repr

namespace Command

------------------------------------------------------------
-- Words
------------------------------------------------------------

/- The option that every command knows. -/
def verbose : OptionSpec :=
  ⟨'v', "verbose", false⟩

/- The option that names the schema file. -/
def file : OptionSpec :=
  ⟨'f', "file", true⟩

/- The options of the command that generates. -/
def generateOptions : List OptionSpec :=
  [
    verbose, file, ⟨'l', "language", true⟩,
    ⟨'o', "output", true⟩, ⟨'e', "encoding", true⟩
  ]

/- The options of the command that parses. -/
def parseOptions : List OptionSpec :=
  [verbose, file]

/- The options of the command that decodes. -/
def decodeOptions : List OptionSpec :=
  [
    verbose, file, ⟨'m', "message", true⟩,
    ⟨'i', "input", true⟩
  ]

/- The value of an option that is a path, so not empty. -/
def path?
    (settings : Settings)
    (name : String) :
    Option String :=
  match settings.lookup name with
  | some "" => none
  | value => value

/- The same with a path that stands if none is given. -/
def pathOr?
    (settings : Settings)
    (name standard : String) :
    Option String :=
  match settings.lookup name with
  | none => some standard
  | some "" => none
  | some value => some value

/- The command that some settings give to a name. -/
def ofSettings?
    (name : String)
    (words : List String) :
    Option Command :=
  match name with
  | "generate" => do
      let settings ← readSettings? generateOptions words
      let source ← path? settings "file"
      let outputDir ← pathOr? settings "output" "."
      let encoding ←
        Encoding.ofText?
          ((settings.lookup "encoding").getD "binary")
      let backend :=
        (settings.lookup "language").getD
          GenerateConfig.defaultBackend
      return .generate ⟨source, outputDir, backend, encoding⟩
  | "parse" => do
      let settings ← readSettings? parseOptions words
      let source ← path? settings "file"
      return .parse source
  | "decode" => do
      let settings ← readSettings? decodeOptions words
      let source ← path? settings "file"
      let message ← settings.lookup "message"
      let input ← path? settings "input"
      return .decode source message input
  | _ => none

/- The command that some words give, if they give one. -/
def ofWords?
    (words : List String) :
    Option Command := do
  let (settings, name, rest) ← splitCommand? [verbose] words
  let _ ← unrepeated? settings
  ofSettings? name rest

------------------------------------------------------------
-- Execution
------------------------------------------------------------

section Execution

variable {m : Type → Type} [Monad m] [FileStore m]

/- Take over a result as a part of an execution. -/
def lift
    {α : Type}
    (result : Except Error α) :
    ExceptT Error m α :=
  ExceptT.mk (pure result)

/- Do what a command says. The result is what it prints. -/
def execute : Command → ExceptT Error m String
| generate config => do
    let files ← generateFiles config
    return String.join (files.map (·.path ++ "\n"))
| parse file => do
    let text ← readText file
    let schema ← lift (parseSource text)
    return (ParsedSchema.toJson schema).pretty ++ "\n"
| decode file message input => do
    let text ← readText file
    let schema ← lift (compile text)
    let data ← readBytes input
    let value ←
      lift ((Value.decode schema message data).mapError .codec)
    return value.toJson.pretty ++ "\n"

end Execution

end Command

end TagWire
