import TagWire.Proofs.Generated.Text

/-
  The services of the generated code: the methods that a
  service offers, the adapter that serves them to encoded
  messages, and the function that registers them. Their text
  is the generated one, and so is that of both files.

  Main declarations:
    * `Generated.AdaptedMethod`
    * `Generated.ServiceItem`
    * `Generated.servicesCode_eq`
    * `Generated.Generates`
    * `Generated.generates_ofSchema`
-/

------------------------------------------------------------
-- Items of Services
------------------------------------------------------------

namespace TagWire

namespace Generated

open Text Emit

/- A method that a service offers, with or without a reply. -/
structure OfferedMethod where
  ident : String
  request : String
  reply : Option String
deriving DecidableEq, Repr

namespace OfferedMethod

def line
    (m : OfferedMethod) :
    String :=
  phrase
    [
      "    fn ", m.ident, "(&self, req: &", m.request, ") -> ",
      serviceResult (m.reply.getD "()"), ";"
    ]

end OfferedMethod

/- The first part of a method over bytes. -/
def bytesHead
    (ident : String) :
    String :=
  phrase
    [
      "    fn ", ident, "(&self, req: &[u8]) -> ",
      serviceResult byteVector
    ]

/-
  A method over bytes. It makes `args` of the bytes `req`,
  calls a method that is offered, and makes bytes of `reply`
  if there is one.
-/
structure AdaptedMethod where
  ident : String
  args : Expr
  call : String
  reply : Option Expr
deriving DecidableEq, Repr

namespace AdaptedMethod

/- The lines behind the call. -/
def replyLines
    (a : AdaptedMethod) :
    List String :=
  match a.reply with
  | some e =>
      [
        phrase
          [
            "        let reply = self.service.", a.call,
            "(&args)?;"
          ],
        phrase ["        ", (Ending.ok e).text]
      ]
  | none =>
      [
        phrase ["        self.service.", a.call, "(&args)?;"],
        "        Ok(::std::vec::Vec::new())"
      ]

def lines
    (a : AdaptedMethod) :
    List String :=
  [
    opening (bytesHead a.ident),
    phrase ["        let args = ", a.args.text, ";"]
  ] ++
    a.replyLines ++ [closing "    "]

end AdaptedMethod

/- The binding of a name to a method over bytes. -/
structure Registration where
  name : String
  method : String
deriving DecidableEq, Repr

namespace Registration

def lines
    (g : Registration) :
    List String :=
  [
    "    " ++ leftBrace,
    "        let adapter = ::std::sync::Arc::clone(&adapter);",
    "        server.register(",
    phrase
      [
        "            format!(\"", hole, ".", hole,
        "\", service_name, ", inspect g.name, "),"
      ],
    phrase
      [
        "            ::std::boxed::Box::new(move |req: &[u8]| ",
        "adapter.", g.method, "(req)),"
      ],
    "        );",
    closing "    "
  ]

end Registration

/- A service. -/
structure ServiceItem where
  ident : String
  offered : List OfferedMethod
  overBytes : List String
  adapted : List AdaptedMethod
  registerIdent : String
  registrations : List Registration
deriving DecidableEq, Repr

namespace ServiceItem

/- The lines of the methods that are offered. -/
def offeredLines
    (s : ServiceItem) :
    List String :=
  [opening ("pub trait " ++ s.ident)] ++
    s.offered.map OfferedMethod.line ++ [rightBrace]

/- The lines of the methods over bytes. -/
def overBytesLines
    (s : ServiceItem) :
    List String :=
  [opening ("pub trait " ++ s.ident ++ "Handler")] ++
    s.overBytes.map (bytesHead · ++ ";") ++ [rightBrace]

/- The lines of the data of the adapter, which is a service. -/
def adapterLines
    (s : ServiceItem) :
    List String :=
  [
    "/// Serves a \x60" ++ s.ident ++
      "\x60 implementation through \x60" ++ s.ident ++
      "Handler\x60.",
    opening ("pub struct " ++ s.ident ++ "Adapter<T>"),
    "    service: T,",
    rightBrace
  ]

/- The lines that make an adapter and take it apart. -/
def wrappingLines
    (s : ServiceItem) :
    List String :=
  [
    opening ("impl<T> " ++ s.ident ++ "Adapter<T>"),
    opening "    pub fn new(service: T) -> Self",
    "        Self " ++ inBraces "service",
    closing "    ",
    "",
    opening "    pub fn into_inner(self) -> T",
    "        self.service",
    closing "    ",
    rightBrace
  ]

/- The lines of what the adapter does. -/
def adaptedLines
    (s : ServiceItem) :
    List String :=
  let head :=
    opening
      ("impl<T: " ++ s.ident ++ "> " ++ s.ident ++
        "Handler for " ++ s.ident ++ "Adapter<T>")
  if s.adapted.isEmpty then
    [head ++ rightBrace]
  else
    [head] ++ [""].intercalate (s.adapted.map (·.lines)) ++
      [rightBrace]

/- The lines of what registering a service does. -/
def registerBody
    (s : ServiceItem) :
    List String :=
  if s.registrations.isEmpty then
    ["    let _ = (server, service_name, service);"]
  else
    ["    let adapter = ::std::sync::Arc::new(" ++ s.ident ++
      "Adapter::new(service));"] ++
      s.registrations.flatMap Registration.lines

/- The lines of the function that registers a service. -/
def registerLines
    (s : ServiceItem) :
    List String :=
  [
    "/// Registers every \x60" ++ s.ident ++
      "\x60 method as \x60\"<service_name>.<Method>\"\x60.",
    "pub fn " ++ s.registerIdent ++
      "<R, T>(server: &mut R, service_name: &str, " ++
      "service: T)",
    "where",
    "    R: ::dgen::rpc::Registrar + ?Sized,",
    "    T: " ++ s.ident ++ " + Send + Sync + 'static,",
    leftBrace
  ] ++
    s.registerBody ++ [rightBrace]

/- The blocks of lines of a service. -/
def blocks
    (s : ServiceItem) :
    List (List String) :=
  [
    s.offeredLines, s.overBytesLines, s.adapterLines,
    s.wrappingLines, s.adaptedLines, s.registerLines
  ]

end ServiceItem

------------------------------------------------------------
-- Services of a Schema
------------------------------------------------------------

/- A method as it is offered. -/
def offeredMethod
    (m : Method) :
    OfferedMethod where
  ident := Names.methodIdent m.name
  request := Names.typeIdent m.request
  reply := m.response.map Names.typeIdent

/- A method as it is served to encoded messages. -/
def adaptedMethod
    (m : Method) :
    AdaptedMethod where
  ident := Names.methodHandlerIdent m.name
  args := .unmarshal (Names.typeIdent m.request) (.var "req")
  call := Names.methodIdent m.name
  reply :=
    m.response.map fun _ => .marshal (.borrow (.var "reply"))

/- A method as it is registered. -/
def registration
    (m : Method) :
    Registration where
  name := m.name
  method := Names.methodHandlerIdent m.name

/- The item of a service. -/
def serviceItem
    (s : Service) :
    ServiceItem where
  ident := Names.serviceIdent s.name
  offered := s.methods.map offeredMethod
  overBytes :=
    s.methods.map fun m => Names.methodHandlerIdent m.name
  adapted := s.methods.map adaptedMethod
  registerIdent := Names.registerIdent s.name
  registrations := s.methods.map registration

/- The blocks of the file of some services. -/
def servicesBlocks
    (sourceName : String)
    (services : List ServiceItem) :
    List (List String) :=
  [headLine sourceName] :: services.flatMap ServiceItem.blocks

end Generated

end TagWire

------------------------------------------------------------
-- Texts of Services
------------------------------------------------------------

namespace TagWire

namespace Generated

open Emit Text

variable (s : Service)

theorem typedCode_eq :
    typedCode s (Names.serviceIdent s.name) =
      unlines (serviceItem s).offeredLines := by
  unfold typedCode
  rw [lines_concat_end]
  simp only [ServiceItem.offeredLines, serviceItem,
    List.map_map]
  congr 3
  refine List.map_congr_left fun m _ => ?_
  simp [OfferedMethod.line, offeredMethod, String.append_assoc]

theorem rawHead_eq
    (m : Method) :
    rawHead m = bytesHead (Names.methodHandlerIdent m.name) := by
  simp [rawHead, bytesHead, String.append_assoc]

theorem rawCode_eq :
    rawCode s (Names.serviceIdent s.name) =
      unlines (serviceItem s).overBytesLines := by
  unfold rawCode
  rw [lines_concat_end]
  simp only [ServiceItem.overBytesLines, serviceItem,
    List.map_map, rawHead_eq]
  rfl

theorem adaptedMethodCode_eq
    (m : Method) :
    adaptedMethodCode m = lines (adaptedMethod m).lines := by
  unfold adaptedMethodCode
  cases hResponse : m.response <;>
    simp [AdaptedMethod.lines, AdaptedMethod.replyLines,
      adaptedMethod, hResponse, rawHead_eq, Expr.text,
      Ending.text, String.append_assoc] <;>
    rfl

theorem newline_newline
    (rest : String) :
    "\n" ++ ("\n" ++ rest) = "\n\n" ++ rest := by
  rw [← String.append_assoc]
  rfl

/- Blocks with an empty line between them are lines as well. -/
theorem intercalate_lines
    {parts : List (List String)}
    (h : ∀ part ∈ parts, part ≠ []) :
    "\n\n".intercalate (parts.map lines) =
      lines ([""].intercalate parts) := by
  induction parts with
  | nil => rfl
  | cons part rest ih =>
      rcases List.forall_mem_cons.mp h with ⟨hPart, hRest⟩
      cases rest with
      | nil => simp
      | cons part' rest =>
          have hSplice := lines_splice [] hPart
            ("" :: [""].intercalate (part' :: rest))
          have hFirst (l : String) (ls : List String)
              (hNext : ls ≠ []) :
              lines (l :: "" :: ls) = l ++ "\n\n" ++ lines ls := by
            rcases ls with _ | ⟨l', ls⟩
            · exact absurd rfl hNext
            · simp [lines, String.intercalate_cons_cons,
                String.append_assoc, newline_newline]
          have hNext : [""].intercalate (part' :: rest) ≠ [] := by
            rcases List.forall_mem_cons.mp hRest with ⟨hPart', _⟩
            cases rest <;>
              simp [List.intercalate, hPart']
          rw [List.map_cons, List.map_cons,
            String.intercalate_cons_cons, ← List.map_cons,
            ih hRest]
          simp only [List.nil_append] at hSplice
          rw [hFirst _ _ hNext] at hSplice
          rw [hSplice]
          simp [List.intercalate]

/-
  The end of a line may be an empty line behind it, and what
  is behind is seen through its text.
-/
theorem lines_end_congr
    (front : List String)
    (l : String)
    {ls ls' : List String}
    (h : ls ≠ [])
    (h' : ls' ≠ [])
    (hText : lines ls = lines ls') :
    lines (front ++ (l ++ "\n") :: ls) =
      lines (front ++ l :: "" :: ls') := by
  rcases ls with _ | ⟨next, ls⟩
  · exact absurd rfl h
  · rcases ls' with _ | ⟨next', ls'⟩
    · exact absurd rfl h'
    · have hText :
          "\n".intercalate (next :: ls) =
            "\n".intercalate (next' :: ls') := hText
      rw [lines_append_cons, lines_append_cons]
      simp [lines, String.intercalate_cons_cons,
        String.append_assoc, newline_newline, hText]

/- The same for three lines, and what is behind them. -/
theorem lines_end_thrice
    (ls ls' ls'' : List String)
    (l l' l'' : String)
    {rest rest' : List String}
    (h : rest ≠ [])
    (h' : rest' ≠ [])
    (hText : lines rest = lines rest') :
    lines
        (ls ++ (l ++ "\n") :: (ls' ++ (l' ++ "\n") ::
          (ls'' ++ (l'' ++ "\n") :: rest))) =
      lines
        (ls ++ l :: "" :: (ls' ++ l' :: "" ::
          (ls'' ++ l'' :: "" :: rest'))) := by
  apply lines_end_congr ls l (by simp) (by simp)
  apply lines_end_congr ls' l' (by simp) (by simp)
  exact lines_end_congr ls'' l'' h h' hText

/- The text of what an adapter does. -/
theorem adaptedCode_eq :
    lines
        (let serving :=
          opening
            ("impl<T: " ++ (serviceItem s).ident ++ "> " ++
              (serviceItem s).ident ++ "Handler for " ++
              (serviceItem s).ident ++ "Adapter<T>")
        if s.methods.isEmpty then
          [serving ++ rightBrace ++ "\n"]
        else
          [
            serving,
            "\n\n".intercalate (s.methods.map adaptedMethodCode),
            rightBrace ++ "\n"
          ]) =
      unlines (serviceItem s).adaptedLines := by
  have hLines :
      s.methods.map adaptedMethodCode =
        ((s.methods.map adaptedMethod).map (·.lines)).map
          lines := by
    simp only [List.map_map]
    exact List.map_congr_left fun m _ => adaptedMethodCode_eq m
  unfold ServiceItem.adaptedLines
  simp only [serviceItem, List.isEmpty_map]
  cases hEmpty : s.methods.isEmpty with
  | true =>
      rw [if_pos rfl, if_pos rfl]
      exact lines_concat_end [] _
  | false =>
      have hNotEmpty :
          [""].intercalate
              ((s.methods.map adaptedMethod).map (·.lines)) ≠
            [] := by
        rcases hMethods : s.methods with _ | ⟨m, rest⟩
        · rw [hMethods] at hEmpty
          cases hEmpty
        · cases rest <;>
            simp [List.intercalate, AdaptedMethod.lines]
      simp only [Bool.false_eq_true, if_false]
      rw [hLines, intercalate_lines (by simp [AdaptedMethod.lines])]
      refine (lines_splice [_] hNotEmpty [_]).trans ?_
      rw [← List.append_assoc, lines_concat_end]

theorem adapterCode_eq :
    adapterCode s (Names.serviceIdent s.name) =
      fileText
        [
          (serviceItem s).adapterLines,
          (serviceItem s).wrappingLines,
          (serviceItem s).adaptedLines
        ] := by
  have hParts :=
    lines_map_lines []
      [
        (serviceItem s).adapterLines ++ [""],
        (serviceItem s).wrappingLines ++ [""],
        (serviceItem s).adaptedLines ++ [""]
      ]
      (by simp)
  have hFile :
      fileText
          [
            (serviceItem s).adapterLines,
            (serviceItem s).wrappingLines,
            (serviceItem s).adaptedLines
          ] =
        lines
          ((serviceItem s).adapterLines ++ [""] ++
            ((serviceItem s).wrappingLines ++ [""]) ++
            ((serviceItem s).adaptedLines ++ [""])) := by
    simp only [fileText, List.map_cons, List.map_nil,
      ← lines_concat_empty]
    simpa using hParts
  have hAdapted := adaptedCode_eq s
  rw [← lines_concat_empty] at hAdapted
  rw [hFile]
  exact
    lines_end_thrice [_, _, _] [_, _, _] [_, _, _] _ _ _
      (by cases s.methods.isEmpty <;> simp) (by simp) hAdapted

theorem registerCode_eq :
    registerCode s (Names.serviceIdent s.name) =
      unlines (serviceItem s).registerLines := by
  unfold registerCode
  have hLines :
      Emit.registerLines = fun m => (registration m).lines := by
    funext m
    simp [Emit.registerLines, Registration.lines, registration,
      String.append_assoc]
    rfl
  rw [lines_concat_end]
  unfold ServiceItem.registerLines ServiceItem.registerBody
  unfold serviceItem
  dsimp only
  rw [List.isEmpty_map, List.flatMap_map, hLines]

------------------------------------------------------------
-- Generated Files
------------------------------------------------------------

/- The text of a block is that of its lines. -/
theorem fileText_singleton
    (block : List String) :
    fileText [block] = unlines block := by
  rw [fileText, List.map_singleton, lines_singleton]

/- The parts of the text of a service, each with its blocks. -/
def serviceParts
    (s : ServiceItem) :
    List (List (List String)) :=
  [
    [s.offeredLines], [s.overBytesLines],
    [s.adapterLines, s.wrappingLines, s.adaptedLines],
    [s.registerLines]
  ]

theorem serviceCode_eq :
    serviceCode s =
      (serviceParts (serviceItem s)).map fileText := by
  unfold serviceCode serviceParts
  simp only [typedCode_eq, rawCode_eq, adapterCode_eq,
    registerCode_eq, List.map_cons, List.map_nil,
    fileText_singleton]

/- The generated text is the text of the services. -/
theorem servicesCode_eq
    (sourceName : String)
    (services : List Service) :
    servicesCode sourceName services =
      fileText
        (servicesBlocks sourceName
          (services.map serviceItem)) := by
  have hHeader :
      header sourceName = fileText [[headLine sourceName]] := by
    rw [fileText_singleton, unlines_cons]
    exact header_eq sourceName
  have hCode :
      serviceCode =
        fun s => (serviceParts (serviceItem s)).map fileText :=
    funext serviceCode_eq
  have hParts :
      header sourceName :: services.flatMap serviceCode =
        ([[headLine sourceName]] ::
          (services.map serviceItem).flatMap
            serviceParts).map fileText := by
    rw [List.map_cons, ← hHeader, List.map_flatMap,
      List.flatMap_map, hCode]
  unfold servicesCode
  rw [hParts, lines_map_fileText]
  · rw [List.flatten_cons, ← List.flatMap_id,
      List.flatMap_assoc]
    rfl
  · intro part hPart
    simp only [List.mem_cons, List.mem_flatMap,
      serviceParts] at hPart
    rcases hPart with rfl | ⟨_, _, rfl | rfl | rfl | rfl | h⟩
    · exact List.cons_ne_nil _ _
    · exact List.cons_ne_nil _ _
    · exact List.cons_ne_nil _ _
    · exact List.cons_ne_nil _ _
    · exact List.cons_ne_nil _ _
    · cases h

/-
  A schema text gives a file with a program and a file with
  some services.
-/
def Generates
    (sourceName stem text : String)
    (encoding : Encoding)
    (p : Program)
    (services : List ServiceItem) :
    Prop :=
  generateSource sourceName stem text
      GenerateConfig.defaultBackend encoding =
    .ok
      [
        ⟨stem ++ ".rs", fileText (fileBlocks sourceName p)⟩,
        ⟨stem ++ "_rpc.rs",
          fileText (servicesBlocks sourceName services)⟩
      ]

/- Every schema gives its program and its services. -/
theorem generates_ofSchema
    {text : String}
    {schema : ResolvedSchema}
    (h : compile text = .ok schema)
    (sourceName stem : String)
    (encoding : Encoding) :
    Generates sourceName stem text encoding
      (Program.ofSchema encoding schema)
      (schema.services.map serviceItem) := by
  have hBackend :
      checkBackend GenerateConfig.defaultBackend = .ok () :=
    if_pos rfl
  unfold Generates generateSource
  rw [hBackend, h, ← typesCode_eq h, ← servicesCode_eq]
  rfl

end Generated

end TagWire
