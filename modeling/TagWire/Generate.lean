import TagWire.Compile
import TagWire.Emit.Output
import TagWire.Files.Store
import TagWire.Json.Basic
import TagWire.Json.Read

/-
  This file defines a run of the generator: from a schema file
  to the files of generated code. Everything is generated
  before the first file is written.

  Key definitions include:
    * `GenerateConfig`
    * `GenerateConfig.ofJson?`
    * `generateSource`
    * `generateFiles`
-/

namespace TagWire

open Text

------------------------------------------------------------
-- Configuration
------------------------------------------------------------

/- The encoding of a text, or the error that names it. -/
def Encoding.ofText
    (text : String) :
    Except Error Encoding :=
  match Encoding.ofText? text with
  | some encoding => .ok encoding
  | none => .error (.unknownEncoding text)

/- What a run of the generator needs to know. -/
structure GenerateConfig where
  source : String
  outputDir : String
  backend : String
  encoding : Encoding
deriving DecidableEq, Repr

namespace GenerateConfig

/- The name of the only backend, which is also the default. -/
def defaultBackend : String :=
  "rust"

/- A configuration from its JSON form. -/
def ofJson?
    (j : JsonPart) :
    Option GenerateConfig := do
  match ←
      j.fields? ["source", "output_dir", "backend", "encoding"]
        2 with
  | [some source, some outputDir, backend, encoding] => do
      let backend ←
        match backend with
        | some part => part.string?
        | none => some defaultBackend
      let encoding ←
        match encoding with
        | some part => do
            let name ← part.variant?
            Encoding.ofText? name
        | none => some .binary
      let source ← source.string?
      let outputDir ← outputDir.string?
      return ⟨source, outputDir, backend, encoding⟩
  | _ => none

/- The JSON form of a configuration. -/
def toJson
    (c : GenerateConfig) :
    Json :=
  .object
    [
      ("source", .string c.source),
      ("output_dir", .string c.outputDir),
      ("backend", .string c.backend),
      ("encoding", .string c.encoding.text)
    ]

end GenerateConfig

------------------------------------------------------------
-- Generation
------------------------------------------------------------

/- A generated file. -/
structure GeneratedFile where
  path : String
  content : String
deriving DecidableEq, Repr

/- Refuse a backend that is not known. -/
def checkBackend
    (name : String) :
    Except Error Unit :=
  if name = GenerateConfig.defaultBackend then
    .ok ()
  else
    .error (.unknownBackend name)

/-
  The files generated from a schema text: the data types with
  their codecs, and the services.
-/
def generateSource
    (sourceName stem text backend : String)
    (encoding : Encoding) :
    Except Error (List GeneratedFile) := do
  checkBackend backend
  let schema ← compile text
  let output := Emit.generate sourceName encoding schema
  return [
    ⟨stem ++ ".rs", output.types⟩,
    ⟨stem ++ "_rpc.rs", output.services⟩
  ]

/- The name of a file up to its first point. -/
def stemOf
    (fileName : String) :
    String :=
  String.ofList (fileName.toList.takeWhile (· ≠ '.'))

/- What the names of generated files start with. -/
def outputStem
    (source : String) :
    String :=
  match Path.fileName? source with
  | none => "schema"
  | some name =>
      if stemOf name = "" then "schema" else stemOf name

------------------------------------------------------------
-- Files
------------------------------------------------------------

section Files

variable {m : Type → Type} [Monad m] [FileStore m]

/- Read a file. -/
def readBytes
    (path : String) :
    ExceptT Error m (List UInt8) :=
  ExceptT.mk do
    let content ← FileStore.read path
    return content.mapError Error.file

/- Read a file that holds a text. -/
def readText
    (path : String) :
    ExceptT Error m String := do
  let content ← readBytes path
  match Utf8.decode content with
  | .ok text => return text
  | .error _ => throw (.file .invalidText)

/- Write a text to a file. -/
def writeText
    (path text : String) :
    ExceptT Error m Unit :=
  ExceptT.mk do
    let result ← FileStore.write path (Utf8.encode text)
    return result.mapError Error.file

/- Make a directory and those above it. -/
def makeDirectories
    (path : String) :
    ExceptT Error m Unit :=
  ExceptT.mk do
    let result ← createDirectories path
    return result.mapError Error.file

/- Write generated files into a directory, in order. -/
def writeFiles
    (directory : String) :
    List GeneratedFile → ExceptT Error m (List GeneratedFile)
| [] => return []
| file :: rest => do
    let path := Path.join directory file.path
    writeText path file.content
    let written ← writeFiles directory rest
    return ⟨path, file.content⟩ :: written

/-
  Read the source of a configuration, generate its files, and
  write them. The files are given with their full paths.
-/
def generateFiles
    (c : GenerateConfig) :
    ExceptT Error m (List GeneratedFile) := do
  let text ← readText c.source
  let sourceName := (Path.fileName? c.source).getD ""
  let files ←
    ExceptT.mk
      (pure
        (generateSource sourceName (outputStem c.source) text
          c.backend c.encoding))
  makeDirectories c.outputDir
  writeFiles c.outputDir files

end Files

end TagWire
