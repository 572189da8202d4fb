import TagWire.Proofs.Files.Writing

/-
  What a run of the generator leaves of a tree of files.
  Whatever fails before the first file is written leaves every
  file as it was, and a run that succeeds changes only its two
  files. In between one case remains: the first file is
  written, and the second one cannot be.

  Main declarations:
    * `GenerateConfig.generated`
    * `GenerateConfig.Ends`
    * `GenerateConfig.ends_generateFiles`
    * `GenerateConfig.halfway_obstructed`
-/

------------------------------------------------------------
-- Generating
------------------------------------------------------------

namespace TagWire

/- The two files that are generated, if any are. -/
theorem generateSource_eq_ok
    {sourceName stem text backend : String}
    {encoding : Encoding}
    {files : List GeneratedFile}
    (h :
      generateSource sourceName stem text backend encoding =
        .ok files) :
    ∃ types services,
      files =
        [⟨stem ++ ".rs", types⟩,
          ⟨stem ++ "_rpc.rs", services⟩] := by
  rcases Outcome.bind_eq_ok_iff.mp h with ⟨_, _, h⟩
  rcases Outcome.bind_eq_ok_iff.mp h with ⟨schema, _, h⟩
  cases h
  exact ⟨_, _, rfl⟩

/- The generated texts are named like the source. -/
theorem isName_outputStem
    {ending : String}
    (source : String)
    (hEnding : '/' ∉ ending.toList)
    (hLong : 2 < ending.length) :
    Path.IsName (outputStem source ++ ending) := by
  apply Path.isName_append _ hEnding hLong
  unfold outputStem
  split
  · decide
  · next name hName =>
      split
      · decide
      · unfold stemOf
        rw [String.toList_ofList]
        intro hMem
        exact Path.noSlash_of_fileName? hName
          ((List.takeWhile_sublist _).mem hMem)

namespace GenerateConfig

variable (c : GenerateConfig)

/- Where the data types of a schema are written. -/
def typesPath :
    String :=
  Path.join c.outputDir (outputStem c.source ++ ".rs")

/- Where the services of a schema are written. -/
def servicesPath :
    String :=
  Path.join c.outputDir (outputStem c.source ++ "_rpc.rs")

/- What is generated from the source as a tree holds it. -/
def generated
    (t : FileTree) :
    Except Error (List GeneratedFile) := do
  let content ← (t.read c.source).mapError Error.file
  let text ←
    (Text.Utf8.decode content).mapError
      fun _ => Error.file .invalidText
  generateSource ((Path.fileName? c.source).getD "")
    (outputStem c.source) text c.backend c.encoding

/- The two texts that are generated from a tree. -/
def Generates
    (t : FileTree)
    (types services : String) :
    Prop :=
  c.generated t =
    .ok
      [⟨outputStem c.source ++ ".rs", types⟩,
        ⟨outputStem c.source ++ "_rpc.rs", services⟩]

variable {c}
variable {t : FileTree}

theorem exists_generates
    {files : List GeneratedFile}
    (h : c.generated t = .ok files) :
    ∃ types services, c.Generates t types services := by
  unfold Generates
  rw [h]
  rcases Outcome.bind_eq_ok_iff.mp h with ⟨content, _, h⟩
  rcases Outcome.bind_eq_ok_iff.mp h with ⟨text, _, h⟩
  rcases generateSource_eq_ok h with ⟨types, services, rfl⟩
  exact ⟨types, services, rfl⟩

/- Both texts are generated from a source that compiles. -/
theorem exists_generates_of_compile
    {text : String}
    {schema : ResolvedSchema}
    (hRead : t.read c.source = .ok (Text.Utf8.encode text))
    (hBackend : c.backend = defaultBackend)
    (hCompile : compile text = .ok schema) :
    ∃ types services, c.Generates t types services := by
  have hGenerated :
      c.generated t =
        generateSource ((Path.fileName? c.source).getD "")
          (outputStem c.source) text c.backend c.encoding := by
    unfold generated
    simp only [hRead, Except.mapError, bind, Except.bind,
      Text.Utf8.decode_encode]
  unfold Generates
  rw [hGenerated]
  unfold generateSource
  rw [hBackend, hCompile]
  exact ⟨_, _, rfl⟩

/- How a run on a tree ends. -/
inductive Ends (c : GenerateConfig) (t : FileTree) :
    Except Error (List GeneratedFile) → FileTree → Prop where
/- Nothing is generated, and nothing happens to the tree. -/
| refused
    {e : Error}
    (hRefused : c.generated t = .error e) :
    Ends c t (.error e) t
/- The directory cannot be made. All files stay. -/
| unmade
    {types services : String}
    {e : FileError}
    {t' : FileTree}
    (hGenerates : c.Generates t types services)
    (hFails :
      runOn (makeDirectories c.outputDir) t =
        (.error (.file e), t'))
    (hSame : t.SameFiles t') :
    Ends c t (.error (.file e)) t'
/- The data types cannot be written. All files stay. -/
| blocked
    {types services : String}
    {e : FileError}
    {t' : FileTree}
    (hGenerates : c.Generates t types services)
    (hFails :
      t'.write c.typesPath (Text.Utf8.encode types) = .error e)
    (hSame : t.SameFiles t') :
    Ends c t (.error (.file e)) t'
/- The data types are written, but the services cannot be. -/
| halfway
    {types services : String}
    {e : FileError}
    {t' : FileTree}
    (hGenerates : c.Generates t types services)
    (hTypes :
      t'.read c.typesPath = .ok (Text.Utf8.encode types))
    (hSame : FileTree.SameFilesBut [c.typesPath] t t')
    (hFails :
      t'.write c.servicesPath (Text.Utf8.encode services) =
        .error e) :
    Ends c t (.error (.file e)) t'
/- Both files are written, and no other file changes. -/
| written
    {types services : String}
    {t' : FileTree}
    (hGenerates : c.Generates t types services)
    (hTypes :
      t'.read c.typesPath = .ok (Text.Utf8.encode types))
    (hServices :
      t'.read c.servicesPath = .ok (Text.Utf8.encode services))
    (hSame :
      FileTree.SameFilesBut [c.typesPath, c.servicesPath] t t') :
    Ends c t
      (.ok [⟨c.typesPath, types⟩, ⟨c.servicesPath, services⟩]) t'

/- The part of a run before anything is made or written. -/
def prepare
    (c : GenerateConfig) :
    ExceptT Error (StateM FileTree) (List GeneratedFile) := do
  let text ← readText c.source
  ExceptT.mk
    (pure
      (generateSource ((Path.fileName? c.source).getD "")
        (outputStem c.source) text c.backend c.encoding))

theorem generateFiles_eq
    (c : GenerateConfig) :
    generateFiles c =
      (do
        let files ← c.prepare
        makeDirectories c.outputDir
        writeFiles c.outputDir files) := by
  unfold prepare
  rw [bind_assoc]
  rfl

/- It only looks at the tree. -/
theorem runOn_prepare
    (c : GenerateConfig)
    (t : FileTree) :
    runOn c.prepare t = (c.generated t, t) := by
  unfold generated
  rw [← bind_assoc]
  apply runOn_bind_of_same
  · apply runOn_bind_of_same
    · rfl
    · intro content
      cases Text.Utf8.decode content <;> rfl
  · exact fun text => rfl

theorem runOn_generateFiles_of_error
    {e : Error}
    (h : c.generated t = .error e) :
    runOn (generateFiles c) t = (.error e, t) := by
  rw [generateFiles_eq]
  apply runOn_bind_of_error
  rw [runOn_prepare, h]

theorem runOn_generateFiles_of_ok
    {files : List GeneratedFile}
    (h : c.generated t = .ok files) :
    runOn (generateFiles c) t =
      runOn
        (do
          makeDirectories c.outputDir
          writeFiles c.outputDir files)
        t := by
  rw [generateFiles_eq]
  apply runOn_bind_of_ok
  rw [runOn_prepare, h]

/- The two files have names, which differ. -/
theorem names_of_outputStem
    (source types services : String) :
    let files : List GeneratedFile :=
      [⟨outputStem source ++ ".rs", types⟩,
        ⟨outputStem source ++ "_rpc.rs", services⟩]
    (∀ f ∈ files, Path.IsName f.path) ∧
      (files.map GeneratedFile.path).Nodup := by
  constructor
  · intro f hf
    rcases List.mem_pair.mp hf with rfl | rfl
    · exact isName_outputStem source (by decide) (by decide)
    · exact isName_outputStem source (by decide) (by decide)
  · simp [List.nodup_cons, String.ext_iff]

/- Two files that are written, or fewer, end a run. -/
theorem ends_of_writeRun
    {types services : String}
    {t₁ t' : FileTree}
    {r : Except Error (List GeneratedFile)}
    (hGenerates : c.Generates t types services)
    (hKept : t.SameFiles t₁)
    (h :
      WriteRun c.outputDir
        [⟨outputStem c.source ++ ".rs", types⟩,
          ⟨outputStem c.source ++ "_rpc.rs", services⟩]
        t₁ r t') :
    c.Ends t r t' := by
  rcases h.of_pair with
    ⟨e, rfl, hWrote, hFails⟩ | ⟨e, rfl, hWrote, hFails⟩ |
      ⟨rfl, hWrote⟩
  · exact .blocked hGenerates hFails
      (hKept.trans fun place => hWrote.others place nofun)
  · have hTypes := hWrote.reads _ List.mem_cons_self
    exact .halfway hGenerates hTypes
      (hKept.trans_but hWrote.others) hFails
  · have hTypes := hWrote.reads _ List.mem_cons_self
    have hServices :=
      hWrote.reads _ (List.mem_cons_of_mem _ List.mem_cons_self)
    exact .written hGenerates hTypes hServices
      (hKept.trans_but hWrote.others)

/- Every run on a tree ends in one of these ways. -/
theorem ends_generateFiles
    (c : GenerateConfig)
    (t : FileTree) :
    c.Ends t (runOn (generateFiles c) t).1
      (runOn (generateFiles c) t).2 := by
  cases hGenerated : c.generated t with
  | error e =>
      rw [runOn_generateFiles_of_error hGenerated]
      exact .refused hGenerated
  | ok files =>
      rw [runOn_generateFiles_of_ok hGenerated]
      rcases exists_generates hGenerated with
        ⟨types, services, hGenerates⟩
      obtain rfl :=
        Except.ok.inj (hGenerated.symm.trans hGenerates)
      rcases runOn_makeDirectories c.outputDir t with
        ⟨r, t₁, hMake, hKept⟩
      cases r with
      | error e =>
          rw [runOn_bind_of_error hMake]
          exact .unmade hGenerates hMake hKept
      | ok _ =>
          rw [runOn_bind_of_ok hMake]
          rcases names_of_outputStem c.source types services with
            ⟨hNames, hNodup⟩
          rcases writeRun_writeFiles c.outputDir hNames hNodup
            t₁ with ⟨r, t', hRun, hWrites⟩
          rw [hRun]
          exact ends_of_writeRun hGenerates hKept hWrites

/- A directory stands where the services would be written. -/
def obstructed : FileTree :=
  FileTree.ofFiles
    [("s.dg", Text.Utf8.encode "message A { }"),
      ("s_rpc.rs/keep.txt", Text.Utf8.encode "x")]

def obstructedConfig : GenerateConfig :=
  ⟨"s.dg", ".", defaultBackend, .binary⟩

/- The data types are written, although the run fails. -/
theorem halfway_obstructed :
    (runOn (generateFiles obstructedConfig) obstructed).1 =
        .error (.file .isADirectory) ∧
      obstructed.file? ["s.rs"] = none ∧
      FileTree.file?
        (runOn (generateFiles obstructedConfig) obstructed).2
        ["s.rs"] ≠ none := by
  have hRead :
      obstructed.read obstructedConfig.source =
        .ok (Text.Utf8.encode "message A { }") := by
    rfl
  have hCompile :
      (compile "message A { }").toOption.isSome = true := by
    decide +kernel
  rcases Option.isSome_iff_exists.mp hCompile with
    ⟨schema, hSchema⟩
  rcases exists_generates_of_compile hRead rfl
    (Outcome.eq_ok_of_toOption hSchema) with
    ⟨types, services, hGenerates⟩
  have hMake :
      runOn (makeDirectories ".") obstructed =
        (.ok (), obstructed) := by
    rfl
  have hPlace : obstructed.locate "./s.rs" = .ok ["s.rs"] := by
    rfl
  have hWrite :
      obstructed.write "./s.rs" (Text.Utf8.encode types) =
        .ok (obstructed.put ["s.rs"]
          (.file (Text.Utf8.encode types))) :=
    FileTree.write_eq_ok_iff.mpr ⟨_, hPlace, by decide, rfl⟩
  have hFails :
      FileTree.write
          (obstructed.put ["s.rs"]
            (.file (Text.Utf8.encode types)))
          "./s_rpc.rs" (Text.Utf8.encode services) =
        .error .isADirectory := by
    rfl
  have hRun :
      runOn (generateFiles obstructedConfig) obstructed =
        (.error (.file .isADirectory),
          obstructed.put ["s.rs"]
            (.file (Text.Utf8.encode types))) := by
    rw [runOn_generateFiles_of_ok hGenerates,
      show obstructedConfig.outputDir = "." from rfl,
      runOn_bind_of_ok hMake]
    calc
      _ = _ := runOn_bind_of_ok (runOn_writeText_of_ok hWrite)
      _ = _ :=
          runOn_bind_of_error
            (runOn_bind_of_error (runOn_writeText_of_error hFails))
  rw [hRun]
  refine ⟨rfl, by rfl, ?_⟩
  rw [FileTree.file?_eq_of_node? (FileTree.node?_put_self rfl)]
  exact Option.some_ne_none _

end GenerateConfig

end TagWire
