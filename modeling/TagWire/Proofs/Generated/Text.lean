import TagWire.Generate
import TagWire.Proofs.Emit.Sharing
import TagWire.Proofs.Generated.Syntax

/-
  The program that is generated from a schema, and that its
  text is the generated one.

  Main declarations:
    * `Generated.Program.ofSchema`
    * `Generated.typesCode_eq`
-/

------------------------------------------------------------
-- Phrases
------------------------------------------------------------

namespace TagWire

namespace Generated

open Emit

/- The type of a scalar. -/
def scalarCodeType : ScalarKind → CodeType
| .num kind => .number kind
| .string => .string

/- The type of a value in a list or a map. -/
def elementCodeType : ResolvedType → CodeType
| .scalar kind => scalarCodeType kind
| .named r => .named (Names.typeIdent r.name)
| .list element => .list (elementCodeType element)
| .map key value =>
    .map (scalarCodeType key) (elementCodeType value)

/- The type of a field. -/
def fieldCodeType : ResolvedType → CodeType
| .named (.message name) =>
    .option (.boxed (.named (Names.typeIdent name)))
| type => elementCodeType type

/- The value at a place. -/
def valueAt : Place → Expr
| .referent reference => .deref (.var reference)
| .field ident => .field (.var "self") ident

/- A reference to the value at a place. -/
def borrowAt : Place → Expr
| .referent reference => .var reference
| .field ident => .borrow (.field (.var "self") ident)

/- The statement that writes the value at a place. -/
def writeStatement
    (p : Place) :
    Transfer → Statement
| .scalar (.num kind) => .writeNumber kind (valueAt p)
| .scalar .string => .writeString (borrowAt p)
| .enum _ =>
    .writeNumber (.int .uint32) (.asUint32 (valueAt p))
| .routine ident => .writeRoutine ident (borrowAt p)

/- The expression that reads a value. -/
def readExpr : Transfer → Expr
| .scalar (.num kind) => .readNumber kind
| .scalar .string => .owned .readString
| .enum name =>
    .tryFrom (Names.typeIdent name)
      (.readNumber (.int .uint32))
| .routine ident => .readRoutine ident

------------------------------------------------------------
-- Fields
------------------------------------------------------------

/- The condition under which a field is set. -/
def isSet
    (c : FieldCodec) :
    Condition :=
  match c.field.type with
  | .scalar .string | .list _ | .map _ _ =>
      .holds (.negate (.isEmpty (valueAt c.place)))
  | .scalar (.num (.float _)) =>
      .holds (.isNotZeroPoint (valueAt c.place))
  | .scalar (.num (.int _)) =>
      .holds (.isNotZero (valueAt c.place))
  | .named (.enum _) =>
      .holds
        (.isNotZero (.paren (.asUint32 (valueAt c.place))))
  | .named (.message _) =>
      .binds "value" (borrowAt c.place)

/- The statement that writes a set field. -/
def writeSet
    (c : FieldCodec) :
    Statement :=
  match c.field.type with
  | .named (.message _) =>
      writeStatement (.referent "value") c.transfer
  | _ => writeStatement c.place c.transfer

/- The expression that reads a field. -/
def readSet
    (c : FieldCodec) :
    Expr :=
  match c.field.type with
  | .named (.message _) => .someOf (.box (readExpr c.transfer))
  | _ => readExpr c.transfer

/- What is done if a field is not there. -/
def otherwise
    (fault : Fault)
    (c : FieldCodec) :
    List Statement :=
  if c.field.optional then [] else [.fail fault c.field.name]

/- Write a field. -/
def writeField
    (c : FieldCodec) :
    List Statement :=
  [
    .branch (isSet c) [.writeTag c.field.seq, writeSet c]
      (otherwise .missingField c),
    .gap
  ]

/- Read a field. The last one reads no tag. -/
def readField
    (isLast : Bool)
    (c : FieldCodec) :
    List Statement :=
  [
    .branch (.holds (.isTag (.var "seq") c.field.seq))
      (.assignField "x" c.ident (readSet c) ::
        if isLast then [] else [.assign "seq" .readTag])
      (otherwise .fieldNotFound c),
    .gap
  ]

/- Read some fields, the last one apart. -/
def readFields : List FieldCodec → List Statement
| [] => []
| c :: rest => readField rest.isEmpty c ++ readFields rest

------------------------------------------------------------
-- Items
------------------------------------------------------------

/- What is asked for about a type of data. -/
def attributesOf
    (encoding : Encoding)
    (derives others : List String) :
    Attributes :=
  match encoding with
  | .binary => ⟨derives, others⟩
  | .json =>
      ⟨derives ++
        ["::dgen::serde::Serialize",
          "::dgen::serde::Deserialize"],
        "serde(crate = \"::dgen::serde\")" :: others⟩

/- What every enum can do, and what one with variants can. -/
def enumTraits : List String :=
  [
    "Debug", "Clone", "Copy", "PartialEq", "Eq", "Hash",
    "PartialOrd", "Ord"
  ]

/- What every message can do. -/
def structTraits : List String :=
  ["Debug", "Clone", "Default", "PartialEq"]

/- The item of an enum. -/
def enumItem
    (encoding : Encoding)
    (e : EnumDecl) :
    EnumItem :=
  let ident := Names.typeIdent e.name
  let variants :=
    (numbered e).map fun (variant, i) =>
      ⟨i = 0, Names.typeIdent variant, i⟩
  if e.variants.isEmpty then
    ⟨attributesOf encoding enumTraits [], ident, [], none⟩
  else
    ⟨attributesOf encoding (enumTraits ++ ["Default"])
        ["repr(u32)"],
      ident, variants,
      match encoding with
      | .binary =>
          some
            ⟨variants.map fun v => (v.number, v.ident), e.name⟩
      | .json => none⟩

/- The item of the data of a message. -/
def structItem
    (encoding : Encoding)
    (m : Message TypeRef) :
    StructItem where
  attributes := attributesOf encoding structTraits []
  ident := Names.typeIdent m.name
  fields :=
    m.fields.map fun f =>
      (Names.fieldIdent f.name, fieldCodeType f.type)

/- A message in the binary encoding. -/
def binaryMessage
    (m : Message TypeRef)
    (c : MessageCodec) :
    MessageItem :=
  if c.fields.isEmpty then
    {
      data := structItem .binary m
      buffer := "_bb"
      marshalInto := ⟨[], .ok .unit⟩
      bytes := "_data"
      unmarshal := ⟨[], .ok .selfDefault⟩
    }
  else
    {
      data := structItem .binary m
      buffer := "bb"
      marshalInto := ⟨c.fields.flatMap writeField, .ok .unit⟩
      bytes := "data"
      unmarshal :=
        ⟨[
          .openBuffer (.var "data"),
          .bind true "x" .selfDefault,
          .bind (c.fields.length ≠ 1) "seq" .readTag,
          .gap
        ] ++ readFields c.fields,
          .ok (.var "x")⟩
    }

/- A message that is encoded as JSON. -/
def jsonMessage
    (m : Message TypeRef) :
    MessageItem where
  data := structItem .json m
  buffer := "bb"
  marshalInto :=
    ⟨[.writeBytes (.borrow (.toJson (.var "self")))],
      .ok .unit⟩
  bytes := "data"
  unmarshal := ⟨[], .ok (.fromJson (.var "data"))⟩

/- The item of a message, with the routines that it needs. -/
def messageItem
    (encoding : Encoding)
    (m : Message TypeRef) :
    StateM RoutineTable MessageItem := do
  match encoding with
  | .binary => do
      let codec ← RoutineTable.codecOf m
      return binaryMessage m codec
  | .json => return jsonMessage m

------------------------------------------------------------
-- Routines
------------------------------------------------------------

/- The routines of a list. -/
def listRoutine
    (ident : String)
    (element : ResolvedType)
    (transfer : Transfer) :
    RoutineItem where
  ident := ident
  given := .slice (elementCodeType element)
  writer :=
    ⟨[
      .writeLen (.len (.var "value")),
      .each ["v"] (.var "value")
        [writeStatement (.referent "v") transfer]
    ],
      .ok .unit⟩
  result := .list (elementCodeType element)
  reader :=
    ⟨[
      .bind false "len" .readLen,
      .bind true "value"
        (.listWithCapacity
          (.min (.var "len") (.len .remaining))),
      .times (.var "len") [.push "value" (readExpr transfer)]
    ],
      .ok (.var "value")⟩

/- The routines of a map. -/
def mapRoutine
    (ident : String)
    (key : ScalarKind)
    (value : ResolvedType)
    (transfer : Transfer) :
    RoutineItem :=
  let type :=
    CodeType.map (scalarCodeType key) (elementCodeType value)
  {
    ident := ident
    given := .whole type
    writer :=
      ⟨[
        .writeLen (.len (.var "value")),
        .each ["k", "v"] (.var "value")
          [
            writeStatement (.referent "k") (.scalar key),
            writeStatement (.referent "v") transfer
          ]
      ],
        .ok .unit⟩
    result := type
    reader :=
      ⟨[
        .bind false "len" .readLen,
        .bind true "value" .emptyMap,
        .times (.var "len")
          [
            .bind false "k" (readExpr (.scalar key)),
            .bind false "v" (readExpr transfer),
            .insert "value" (.var "k") (.var "v")
          ]
      ],
        .ok (.var "value")⟩
  }

/-
  The routines of a message. It is read from all that is left,
  and written again to learn how much of that it took up.
-/
def messageRoutine
    (ident : String)
    (name : String) :
    RoutineItem :=
  let type := Names.typeIdent name
  {
    ident := ident
    given := .whole (.named type)
    writer := ⟨[], .marshalInto (.var "value")⟩
    result := .named type
    reader :=
      ⟨[
        .bind false "value" (.unmarshal type .remaining),
        .bind false "consumed"
          (.len (.marshal (.borrow (.var "value")))),
        .skip (.var "consumed")
      ],
        .ok (.var "value")⟩
  }

/- The item of a pair of routines. -/
def routineItem
    (r : Routine) :
    RoutineItem :=
  match r.body with
  | .list element transfer =>
      listRoutine r.ident element transfer
  | .map key value transfer =>
      mapRoutine r.ident key value transfer
  | .message name => messageRoutine r.ident name

------------------------------------------------------------
-- Programs
------------------------------------------------------------

/-
  The program of a schema. The messages are gone through in
  order, and the routines are those that they have asked for.
-/
def Program.ofSchema
    (encoding : Encoding)
    (s : ResolvedSchema) :
    Program :=
  let (messages, table) :=
    (s.messages.mapM (messageItem encoding)).run
      RoutineTable.empty
  ⟨s.enums.map (enumItem encoding), messages,
    table.routines.map routineItem⟩

/- The line that opens a file. -/
def headLine
    (sourceName : String) :
    String :=
  "// Code generated by dgen from " ++ sourceName ++
    ". DO NOT EDIT."

/- The blocks of a file, behind the line that opens it. -/
def fileBlocks
    (sourceName : String)
    (p : Program) :
    List (List String) :=
  [headLine sourceName] :: p.blocks

end Generated

end TagWire

------------------------------------------------------------
-- Texts
------------------------------------------------------------

namespace TagWire

namespace Generated

open Emit Text

theorem unlines_nil :
    unlines [] = "" := by
  rfl

theorem unlines_cons
    (l : String)
    (ls : List String) :
    unlines (l :: ls) = l ++ "\n" ++ unlines ls := by
  simp [unlines]

theorem unlines_append
    (ls ls' : List String) :
    unlines (ls ++ ls') = unlines ls ++ unlines ls' := by
  simp [unlines]

/- Lines in front of others have their ends. -/
theorem lines_append_cons
    (ls : List String)
    (l : String)
    (ls' : List String) :
    lines (ls ++ l :: ls') =
      unlines ls ++ lines (l :: ls') := by
  induction ls with
  | nil => simp [unlines]
  | cons l₀ ls ih =>
      rw [List.cons_append, unlines_cons, String.append_assoc,
        ← ih]
      cases ls <;>
        exact String.intercalate_cons_cons

/- An empty last line is the end of the one before. -/
theorem lines_concat_empty
    (ls : List String) :
    lines (ls ++ [""]) = unlines ls := by
  rw [lines_append_cons]
  simp [lines]

theorem lines_concat
    (ls : List String)
    (l : String) :
    lines (ls ++ [l]) = unlines ls ++ l := by
  rw [lines_append_cons]
  simp [lines]

theorem lines_concat_end
    (ls : List String)
    (l : String) :
    lines (ls ++ [l ++ "\n"]) = unlines (ls ++ [l]) := by
  rw [lines_concat, unlines_append]
  simp [unlines]

theorem append_lines
    (front l : String)
    (ls : List String) :
    front ++ lines (l :: ls) = lines ((front ++ l) :: ls) := by
  cases ls with
  | nil => simp [lines]
  | cons l' ls =>
      simp only [lines, String.intercalate_cons_cons,
        String.append_assoc]

/- The last line gets its end. -/
theorem lines_end
    (l : String)
    (ls : List String) :
    lines (l :: ls) ++ "\n" = unlines (l :: ls) := by
  induction ls generalizing l with
  | nil => simp [lines, unlines]
  | cons l' ls ih =>
      have hNext :
          lines (l :: l' :: ls) =
            l ++ "\n" ++ lines (l' :: ls) :=
        String.intercalate_cons_cons
      rw [hNext, String.append_assoc, ih, unlines_cons l]

theorem append_opening
    (front head : String) :
    front ++ opening head = opening (front ++ head) := by
  simp only [opening, String.append_assoc]

/- Lines may stand among lines as one of them. -/
theorem lines_splice
    (front : List String)
    {ls : List String}
    (h : ls ≠ [])
    (back : List String) :
    lines (front ++ lines ls :: back) =
      lines (front ++ (ls ++ back)) := by
  rcases ls with _ | ⟨l, ls⟩
  · exact absurd rfl h
  · rw [lines_append_cons, List.cons_append, lines_append_cons]
    cases back with
    | nil => simp [lines]
    | cons l' back =>
        have hNext :
            lines (lines (l :: ls) :: l' :: back) =
              lines (l :: ls) ++ "\n" ++ lines (l' :: back) :=
          String.intercalate_cons_cons
        rw [hNext, lines_end, ← lines_append_cons,
          List.cons_append]

/- So may all of them be lines themselves. -/
theorem lines_map_lines
    (front : List String)
    (parts : List (List String))
    (h : ∀ part ∈ parts, part ≠ []) :
    lines (front ++ parts.map lines) =
      lines (front ++ parts.flatten) := by
  induction parts generalizing front with
  | nil => rfl
  | cons part parts ih =>
      rcases List.forall_mem_cons.mp h with ⟨hPart, hParts⟩
      rw [List.map_cons, lines_splice front hPart,
        ← List.append_assoc, ih _ hParts, List.append_assoc,
        List.flatten_cons]

@[simp]
theorem lines_singleton
    (l : String) :
    lines [l] = l := by
  simp [lines]

attribute [local simp] Expr.text Statement.lines
  Statement.linesAll

theorem linesAll_append
    (margin : String)
    (ss ss' : List Statement) :
    Statement.linesAll margin (ss ++ ss') =
      Statement.linesAll margin ss ++
        Statement.linesAll margin ss' := by
  induction ss with
  | nil => rfl
  | cons s rest ih =>
      rw [List.cons_append, Statement.linesAll, ih,
        Statement.linesAll, List.append_assoc]

theorem text_scalarCodeType
    (kind : ScalarKind) :
    (scalarCodeType kind).text = scalarType kind := by
  match kind with
  | .num (.int k) =>
      rw [scalarCodeType, CodeType.text, phrase]
      cases k <;> decide +kernel
  | .num (.float k) =>
      rw [scalarCodeType, CodeType.text, phrase]
      cases k <;> decide +kernel
  | .string => rfl

theorem text_elementCodeType
    (type : ResolvedType) :
    (elementCodeType type).text = elementType type := by
  induction type with
  | scalar kind => exact text_scalarCodeType kind
  | named r => rfl
  | list element ih =>
      show phrase _ = listOf (elementType element)
      rw [ih]
      simp [listOf, String.append_assoc]
  | map key value ih =>
      show phrase _ = mapOf (scalarType key) (elementType value)
      rw [ih, text_scalarCodeType]
      simp [mapOf, String.append_assoc]
      rfl

theorem text_fieldCodeType
    (type : ResolvedType) :
    (fieldCodeType type).text = fieldType type := by
  match type with
  | .named (.message name) =>
      show phrase _ =
        "::std::option::Option<::std::boxed::Box<" ++
          Names.typeIdent name ++ ">>"
      simp [CodeType.text, String.append_assoc]
      rfl
  | .named (.enum name) => rfl
  | .scalar kind => exact text_elementCodeType _
  | .list element => exact text_elementCodeType _
  | .map key value => exact text_elementCodeType _

theorem text_valueAt
    (p : Place) :
    (valueAt p).text = p.value := by
  cases p with
  | referent reference =>
      simp [valueAt, Place.value]
  | field ident =>
      simp [valueAt, Place.value]
      rfl

theorem text_borrowAt
    (p : Place) :
    (borrowAt p).text = p.borrow := by
  cases p with
  | referent reference => rfl
  | field ident =>
      simp [borrowAt, Place.borrow]
      rfl

theorem text_readExpr
    (t : Transfer) :
    (readExpr t).text = t.read := by
  match t with
  | .scalar (.num kind) =>
      show phrase _ = "bb.read_" ++ kind.name ++ "()?"
      simp [String.append_assoc]
  | .scalar .string =>
      show phrase _ = _
      simp
      rfl
  | .enum name =>
      show phrase _ =
        "<" ++ Names.typeIdent name ++
          " as ::std::convert::TryFrom<u32>>" ++
          "::try_from(bb.read_uint32()?)?"
      simp [String.append_assoc]
      rfl
  | .routine ident =>
      show phrase _ = "unmarshal_" ++ ident ++ "(bb)?"
      simp [String.append_assoc]

theorem lines_writeStatement
    (margin : String)
    (p : Place)
    (t : Transfer) :
    (writeStatement p t).lines margin =
      [margin ++ t.write p] := by
  match t with
  | .scalar (.num kind) =>
      show [phrase _] =
        [margin ++ ("bb.write_" ++ kind.name ++ "(" ++
          p.value ++ ");")]
      simp [text_valueAt, String.append_assoc]
  | .scalar .string =>
      show [phrase _] =
        [margin ++ ("bb.write_string(" ++ p.borrow ++ ")?;")]
      simp [text_borrowAt, String.append_assoc]
  | .enum name =>
      show [phrase _] =
        [margin ++ ("bb.write_uint32(" ++ p.value ++
          " as u32);")]
      simp [text_valueAt, String.append_assoc]
      rfl
  | .routine ident =>
      show [phrase _] =
        [margin ++ ("marshal_" ++ ident ++ "(" ++ p.borrow ++
          ", bb)?;")]
      simp [text_borrowAt, String.append_assoc]

------------------------------------------------------------
-- Texts of Fields
------------------------------------------------------------

theorem text_isSet
    (c : FieldCodec) :
    (isSet c).text = c.presence := by
  have hEmpty :
      (Condition.holds
          (.negate (.isEmpty (valueAt c.place)))).text =
        "!" ++ c.place.value ++ ".is_empty()" := by
    simp [Condition.text, text_valueAt, String.append_assoc]
  unfold isSet FieldCodec.presence
  match c.field.type with
  | .scalar .string => exact hEmpty
  | .list _ => exact hEmpty
  | .map _ _ => exact hEmpty
  | .scalar (.num (.float _)) =>
      simp [Condition.text, text_valueAt]
  | .scalar (.num (.int _)) =>
      simp [Condition.text, text_valueAt]
  | .named (.enum _) =>
      simp [Condition.text, text_valueAt, String.append_assoc]
  | .named (.message _) =>
      simp [Condition.text, text_borrowAt]
      rfl

theorem lines_writeSet
    (margin : String)
    (c : FieldCodec) :
    (writeSet c).lines margin = [margin ++ c.write] := by
  unfold writeSet FieldCodec.write
  match c.field.type with
  | .named (.message _) => exact lines_writeStatement _ _ _
  | .named (.enum _) => exact lines_writeStatement _ _ _
  | .scalar _ => exact lines_writeStatement _ _ _
  | .list _ => exact lines_writeStatement _ _ _
  | .map _ _ => exact lines_writeStatement _ _ _

theorem text_readSet
    (c : FieldCodec) :
    (readSet c).text = c.read := by
  unfold readSet FieldCodec.read
  match c.field.type with
  | .named (.message _) =>
      simp [text_readExpr, String.append_assoc]
      rfl
  | .named (.enum _) => exact text_readExpr _
  | .scalar _ => exact text_readExpr _
  | .list _ => exact text_readExpr _
  | .map _ _ => exact text_readExpr _

/- The lines of a branch over a field. -/
theorem unlines_branch
    (c : FieldCodec)
    (condition : Condition)
    (body : List Statement)
    (fault : Fault) :
    unlines
        (Statement.linesAll "        "
          [.branch condition body (otherwise fault c), .gap]) =
      lines
        ([opening ("        if " ++ condition.text)] ++
          Statement.linesAll "            " body ++
          [closing "        " ++ c.otherwise fault.text, "",
            ""]) := by
  have hIf :
      "        " ++ ("if " ++ condition.text) =
        "        if " ++ condition.text :=
    String.append_assoc.symm
  rw [← lines_concat_empty]
  unfold otherwise FieldCodec.otherwise
  cases c.field.optional with
  | true => simp [hIf]
  | false =>
      have hReturn :
          "            " ++
              ("return Err(::dgen::wire::WireError::" ++
                (fault.text ++
                  ("(" ++ (inspect c.field.name ++
                    ".to_string()));")))) =
            "            return Err(" ++ wireError ++ "::" ++
              fault.text ++ "(" ++ inspect c.field.name ++
                ".to_string()));" := by
        simp only [wireError, String.append_assoc]
        rfl
      have hSplice :=
        lines_splice
          (opening ("        if " ++ condition.text) ::
            Statement.linesAll "            " body)
          (List.cons_ne_nil
            (closing "        " ++ opening " else")
            ["            return Err(" ++ wireError ++ "::" ++
                fault.text ++ "(" ++ inspect c.field.name ++
                ".to_string()));",
              closing "        "])
          ["", ""]
      simp only [Bool.false_eq_true, if_false, append_lines,
        List.singleton_append, hSplice]
      simp [hIf, hReturn, append_opening]

theorem writeCode_eq
    (c : FieldCodec) :
    c.writeCode =
      unlines (Statement.linesAll "        " (writeField c)) := by
  have hTag :
      "            " ++
          ("bb.write_tag(" ++
            (c.field.seq.toNat.repr ++ ");")) =
        "            bb.write_tag(" ++
          c.field.seq.toNat.repr ++ ");" := by
    simp only [String.append_assoc]
    rfl
  rw [writeField, unlines_branch, text_isSet]
  simp [lines_writeSet, hTag, FieldCodec.writeCode, Fault.text]

theorem readCode_eq
    (isLast : Bool)
    (c : FieldCodec) :
    c.readCode isLast =
      unlines
        (Statement.linesAll "        " (readField isLast c)) := by
  have hSeq :
      "        if " ++
          ("seq" ++
            (" == Some(" ++ (c.field.seq.toNat.repr ++ ")"))) =
        "        if seq == Some(" ++
          c.field.seq.toNat.repr ++ ")" := by
    simp only [String.append_assoc]
    rfl
  have hAssign :
      "            " ++
          ("x" ++
            ("." ++ (c.ident ++ (" = " ++ (c.read ++ ";"))))) =
        "            x." ++ c.ident ++ " = " ++ c.read ++ ";" := by
    simp only [String.append_assoc]
    rfl
  rw [readField, unlines_branch]
  cases isLast <;>
    simp [Condition.text, text_readSet, hSeq, hAssign,
      FieldCodec.readCode, Fault.text]

theorem readFieldsCode_eq
    (cs : List FieldCodec) :
    MessageCodec.readFieldsCode cs =
      unlines (Statement.linesAll "        " (readFields cs)) := by
  induction cs with
  | nil => rfl
  | cons c rest ih =>
      rw [MessageCodec.readFieldsCode, readFields,
        linesAll_append, unlines_append, ih, readCode_eq]

theorem writeFieldsCode_eq
    (cs : List FieldCodec) :
    String.join (cs.map FieldCodec.writeCode) =
      unlines
        (Statement.linesAll "        "
          (cs.flatMap writeField)) := by
  induction cs with
  | nil => rfl
  | cons c rest ih =>
      rw [List.map_cons, String.join_cons, ih, List.flatMap_cons,
        linesAll_append, unlines_append, writeCode_eq]

------------------------------------------------------------
-- Texts of Messages
------------------------------------------------------------

/- The text of the data of a message. -/
theorem structCode_eq
    (encoding : Encoding)
    (m : Message TypeRef) :
    structCode encoding m =
      unlines (structItem encoding m).lines := by
  have hAttributes :
      (attributesOf encoding structTraits []).lines =
        deriveLines encoding structDerives := by
    cases encoding <;> rfl
  have hFields :
      (m.fields.map fun f =>
        "    pub " ++ Names.fieldIdent f.name ++ ": " ++
          (fieldCodeType f.type).text ++ ",") =
      m.fields.map fun f =>
        "    pub " ++ Names.fieldIdent f.name ++ ": " ++
          fieldType f.type ++ "," := by
    simp only [text_fieldCodeType]
  unfold structCode structItem StructItem.lines
  dsimp only
  rw [hAttributes, List.isEmpty_map, List.map_map]
  cases m.fields.isEmpty with
  | true => exact lines_concat_end _ _
  | false =>
      simp only [Bool.false_eq_true, if_false]
      rw [← List.append_assoc, lines_concat_end, ← hFields,
        List.append_assoc]
      rfl

/- A line with its end closes the lines before it. -/
theorem lines_append_end
    (front : List String)
    (l : String)
    (rest : List String) :
    lines (front ++ (l ++ "\n") :: rest) =
      lines (unlines (front ++ [l]) :: rest) := by
  have hFront :
      unlines (front ++ [l]) = unlines front ++ (l ++ "\n") := by
    rw [unlines_append]
    simp [unlines]
  rw [lines_append_cons, hFront, append_lines]

/- The text of how the variants of an enum are found. -/
theorem enumReadCode_eq
    (e : EnumDecl)
    (variants : List Variant)
    (h :
      variants =
        (numbered e).map fun (variant, i) =>
          ⟨i = 0, Names.typeIdent variant, i⟩) :
    enumReadCode e =
      unlines
        (Numbering.lines (Names.typeIdent e.name)
          ⟨variants.map fun v => (v.number, v.ident),
            e.name⟩) := by
  subst h
  rw [← lines_concat_empty]
  simp [enumReadCode, Numbering.lines, Function.comp_def]

/- The text of an enum. -/
theorem enumCode_eq
    (encoding : Encoding)
    (e : EnumDecl) :
    enumCode encoding e =
      fileText (enumItem encoding e).blocks := by
  have hLines :
      variantLines e =
        ((numbered e).map fun (variant, i) =>
          (⟨i = 0, Names.typeIdent variant, i⟩ :
            Variant)).flatMap Variant.lines := by
    simp [variantLines, Variant.lines, List.flatMap_map]
  have hEmpty :
      ((numbered e).map fun (variant, i) =>
          (⟨i = 0, Names.typeIdent variant, i⟩ :
            Variant)).isEmpty =
        e.variants.isEmpty := by
    rw [List.isEmpty_map, numbered]
    cases e.variants <;> rfl
  unfold enumCode enumItem
  cases hVariants : e.variants.isEmpty with
  | true =>
      simp only [if_true, EnumItem.blocks, List.isEmpty_nil,
        Option.map_none, Option.toList_none, fileText,
        List.map_cons, List.map_nil, lines_singleton]
      rw [← lines_concat_empty]
      cases encoding <;> rfl
  | false =>
      rw [hVariants] at hEmpty
      simp only [Bool.false_eq_true, if_false, EnumItem.blocks,
        hEmpty, hLines]
      cases encoding with
      | binary =>
          rw [List.append_assoc, List.singleton_append,
            lines_append_end, enumReadCode_eq e _ rfl]
          rfl
      | json =>
          rw [List.append_nil, lines_append_end]
          rfl

/- The text of the codec of a message in binary. -/
theorem code_eq
    {m : Message TypeRef}
    {c : MessageCodec}
    (h : c.name = m.name) :
    c.code = unlines (binaryMessage m c).codecLines := by
  have hTail (margin : String) (e : Expr) :
      phrase [margin, (Ending.ok e).text] =
        margin ++ "Ok(" ++ e.text ++ ")" := by
    simp [Ending.text, String.append_assoc]
  rw [← lines_concat_empty]
  unfold binaryMessage MessageCodec.code
  cases c.fields.isEmpty with
  | true =>
      simp only [if_true, MessageCodec.emptyCode, codecHead,
        h, MessageItem.codecLines, Body.lines, structItem,
        Statement.linesAll, hTail]
      simp
      rfl
  | false =>
      have hParts :=
        lines_map_lines []
          [
            [codecHead c.name], [writeHead writeParameter],
            Statement.linesAll "        "
                (c.fields.flatMap writeField) ++
              ["        Ok(())"],
            [closing "    "], [""], [readHead "data"],
            ["        let bb = &mut " ++
              "::dgen::wire::ByteBuffer::new(data);"],
            ["        let mut x = Self::default();"],
            ["        " ++
              (if c.fields.length = 1 then
                "let seq"
              else
                "let mut seq") ++ " = bb.read_tag();"],
            [""],
            Statement.linesAll "        "
                (readFields c.fields) ++
              ["        Ok(x)"],
            [closing "    "], [rightBrace], [""]
          ]
          (by simp)
      simp only [List.nil_append, List.map_cons, List.map_nil,
        lines_singleton] at hParts
      simp only [Bool.false_eq_true, if_false,
        writeFieldsCode_eq, readFieldsCode_eq, ← lines_concat]
      rw [hParts]
      simp only [MessageItem.codecLines, Body.lines, structItem,
        hTail, h, linesAll_append, Statement.linesAll,
        Statement.lines]
      by_cases hOne : c.fields.length = 1
      · simp [hOne]
        rfl
      · simp [hOne]
        rfl

/- The text of the codec of a message as JSON. -/
theorem jsonCodecCode_eq
    (m : Message TypeRef) :
    jsonCodecCode m = unlines (jsonMessage m).codecLines := by
  rw [← lines_concat_empty]
  simp [jsonCodecCode, codecHead, jsonMessage,
    MessageItem.codecLines, Body.lines, structItem,
    Statement.linesAll, Statement.lines, Expr.text,
    Ending.text]
  rfl

------------------------------------------------------------
-- Texts of Routines
------------------------------------------------------------

/- The text of two blocks, behind an empty line. -/
theorem newline_fileText_pair
    (block block' : List String) :
    "\n" ++ fileText [block, block'] =
      lines (("" :: block) ++ ("" :: block') ++ [""]) := by
  rw [lines_concat_empty, unlines_append, unlines_cons,
    unlines_cons, fileText]
  simp [lines, String.intercalate_cons_cons,
    String.append_assoc]

theorem writerHead_eq
    (ident value : String) :
    opening
        ("fn marshal_" ++ ident ++ "(value: &" ++ value ++
          ", bb: &mut ::dgen::wire::ByteBufferMut) -> " ++
          wireResult "()") =
      Routine.writerHead ident value := by
  simp only [Routine.writerHead, Transfer.writerName,
    writeParameter, String.append_assoc]
  rfl

theorem readerHead_eq
    (ident value : String) :
    opening
        ("fn unmarshal_" ++ ident ++
          "(bb: &mut ::dgen::wire::ByteBuffer<'_>) -> " ++
          wireResult value) =
      Routine.readerHead ident value := by
  simp only [Routine.readerHead, Transfer.readerName,
    readParameter, String.append_assoc]
  rfl

/- The text of the routines of a list. -/
theorem listCode_eq
    (ident : String)
    (element : ResolvedType)
    (transfer : Transfer) :
    Routine.listCode ident element transfer =
      "\n" ++
        fileText (listRoutine ident element transfer).blocks := by
  have hType :
      (CodeType.list (elementCodeType element)).text =
        listOf (elementType element) :=
    text_elementCodeType (.list element)
  have hPush :
      "        " ++
          ("value" ++ (".push(" ++ (transfer.read ++ ");"))) =
        "        value.push(" ++ transfer.read ++ ");" := by
    simp only [String.append_assoc]
    rfl
  rw [RoutineItem.blocks, newline_fileText_pair]
  simp [Routine.listCode, listRoutine, writerHead_eq,
    readerHead_eq, hType, hPush, Body.lines,
    Statement.linesAll, Statement.lines, Statement.pattern,
    Expr.text, Ending.text, Referent.text,
    text_elementCodeType, text_readExpr, lines_writeStatement]

/- The text of the routines of a map. -/
theorem mapCode_eq
    (ident : String)
    (key : ScalarKind)
    (value : ResolvedType)
    (transfer : Transfer) :
    Routine.mapCode ident key value transfer =
      "\n" ++
        fileText
          (mapRoutine ident key value transfer).blocks := by
  have hType :
      (CodeType.map (scalarCodeType key)
          (elementCodeType value)).text =
        mapOf (scalarType key) (elementType value) :=
    text_elementCodeType (.map key value)
  have hLet (name : String) (t : Transfer) :
      "        " ++
          ("let " ++ (name ++ (" = " ++ (t.read ++ ";")))) =
        "        let " ++ name ++ " = " ++ t.read ++ ";" := by
    simp only [String.append_assoc]
    rfl
  rw [RoutineItem.blocks, newline_fileText_pair]
  simp [Routine.mapCode, mapName, mapRoutine, writerHead_eq,
    readerHead_eq, hType, hLet, Body.lines,
    Statement.linesAll, Statement.lines, Statement.pattern,
    Expr.text, Ending.text, Referent.text, text_readExpr,
    lines_writeStatement]

/- The text of the routines of a message. -/
theorem messageCode_eq
    (ident name : String) :
    Routine.messageCode ident name =
      "\n" ++ fileText (messageRoutine ident name).blocks := by
  have hValue (back : String) :
      "    " ++
          ("let " ++
            ("value" ++
              (" = " ++
                ("<" ++ (Names.typeIdent name ++ back) ++
                  ";")))) =
        "    let value = <" ++ Names.typeIdent name ++
          (back ++ ";") := by
    simp only [String.append_assoc]
    rfl
  have hRead :
      "    let value = <" ++ Names.typeIdent name ++
          " as ::dgen::wire::Message>" ++
          "::unmarshal(bb.remaining())?;" =
        "    let value = <" ++ Names.typeIdent name ++
          (" as ::dgen::wire::Message>" ++
            "::unmarshal(bb.remaining())?;") :=
    String.append_assoc
  rw [RoutineItem.blocks, newline_fileText_pair]
  simp [Routine.messageCode, messageRoutine, writerHead_eq,
    readerHead_eq, hValue, hRead, Body.lines,
    Statement.linesAll, Statement.lines, Expr.text,
    Ending.text, Referent.text, CodeType.text]

/- The text of a pair of routines. -/
theorem routineCode_eq
    (r : Routine) :
    r.code = "\n" ++ fileText (routineItem r).blocks := by
  rcases r with ⟨ident, body⟩
  cases body with
  | list element transfer =>
      exact listCode_eq ident element transfer
  | map key value transfer =>
      exact mapCode_eq ident key value transfer
  | message name => exact messageCode_eq ident name

------------------------------------------------------------
-- Texts of Programs
------------------------------------------------------------

/- The text of some blocks, then of others. -/
theorem fileText_append
    {blocks blocks' : List (List String)}
    (h : blocks ≠ [])
    (h' : blocks' ≠ []) :
    fileText (blocks ++ blocks') =
      fileText blocks ++ "\n" ++ fileText blocks' := by
  rcases List.exists_cons_of_ne_nil h with ⟨block, rest, rfl⟩
  rcases List.exists_cons_of_ne_nil h' with
    ⟨block', rest', rfl⟩
  simp only [fileText, List.map_append]
  rw [List.map_cons (l := rest'), lines_append_cons,
    List.map_cons, lines_end]

/- The text of the routines of a table. -/
theorem tableCode_eq
    {t : RoutineTable}
    (h : t.routines ≠ []) :
    t.code =
      "\n" ++
        fileText
          ((t.routines.map routineItem).flatMap
            RoutineItem.blocks) := by
  rcases List.exists_cons_of_ne_nil h with ⟨r, rs, hRoutines⟩
  rw [RoutineTable.code, hRoutines]
  clear h hRoutines
  induction rs generalizing r with
  | nil => simp [routineCode_eq]
  | cons r' rs ih =>
      have hRest :
          ((r' :: rs).map routineItem).flatMap
              RoutineItem.blocks ≠ [] := by
        simp [RoutineItem.blocks]
      have hFirst : (routineItem r).blocks ≠ [] := by
        simp [RoutineItem.blocks]
      rw [List.map_cons, String.join_cons, ih r', routineCode_eq,
        List.map_cons (a := r), List.flatMap_cons,
        fileText_append hFirst hRest]
      simp only [String.append_assoc]

/- What stands before the first routine is cut off. -/
theorem trimNewlines_tableCode
    {t : RoutineTable}
    (h : t.routines ≠ []) :
    trimNewlines t.code =
      fileText
        ((t.routines.map routineItem).flatMap
          RoutineItem.blocks) := by
  rw [tableCode_eq h]
  rcases List.exists_cons_of_ne_nil h with ⟨r, rs, hRoutines⟩
  rw [hRoutines, List.map_cons, List.flatMap_cons,
    RoutineItem.blocks, fileText]
  simp only [List.cons_append, List.map_cons, unlines_cons,
    List.nil_append, opening, String.append_assoc]
  have hHead (back : String) (ls : List String) :
      trimNewlines ("\n" ++ lines (("fn marshal_" ++ back) :: ls)) =
        lines (("fn marshal_" ++ back) :: ls) := by
    rw [← append_lines, trimNewlines]
    simp
    rfl
  exact hHead _ _

/- The name of a codec is that of its message. -/
theorem name_codecOf
    (m : Message TypeRef)
    (t : RoutineTable) :
    ((RoutineTable.codecOf m).run t).1.name = m.name := by
  rfl

/- The texts of a message are those of its item. -/
theorem run_messageCode
    (encoding : Encoding)
    (m : Message TypeRef)
    (t : RoutineTable) :
    (messageCode encoding m).run t =
      Prod.map (fun item => item.blocks.map unlines) id
        ((messageItem encoding m).run t) := by
  cases encoding with
  | binary =>
      have hRun :
          (messageCode .binary m).run t =
            Prod.map (fun c => [structCode .binary m, c.code])
              id ((RoutineTable.codecOf m).run t) := rfl
      have hItem :
          (messageItem .binary m).run t =
            Prod.map (binaryMessage m) id
              ((RoutineTable.codecOf m).run t) := rfl
      have hData (c : MessageCodec) :
          (binaryMessage m c).data = structItem .binary m := by
        unfold binaryMessage
        split <;> rfl
      have hName := name_codecOf m t
      rcases hCodec : (RoutineTable.codecOf m).run t with ⟨c, t'⟩
      rw [hCodec] at hName
      rw [hRun, hItem, hCodec, Prod.map_apply, Prod.map_apply,
        Prod.map_apply, structCode_eq, code_eq hName,
        MessageItem.blocks, hData]
      rfl
  | json =>
      show ([structCode .json m, jsonCodecCode m], t) =
        (((jsonMessage m).blocks.map unlines), t)
      rw [structCode_eq, jsonCodecCode_eq]
      rfl

/- So are the texts of some messages. -/
theorem run_mapM_messageCode
    (encoding : Encoding)
    (ms : List (Message TypeRef))
    (t : RoutineTable) :
    (ms.mapM (messageCode encoding)).run t =
      Prod.map
        (List.map fun item => item.blocks.map unlines) id
        ((ms.mapM (messageItem encoding)).run t) := by
  induction ms generalizing t with
  | nil => rfl
  | cons m rest ih =>
      rcases hHead : (messageItem encoding m).run t with
        ⟨item, t'⟩
      rcases hRest :
          (rest.mapM (messageItem encoding)).run t' with
        ⟨items, t''⟩
      have hCode := run_messageCode encoding m t
      have hCodes := ih t'
      rw [hHead] at hCode
      rw [hRest] at hCodes
      rw [run_mapM_cons hHead hRest,
        run_mapM_cons hCode hCodes]
      rfl

/- Each recorded type has its routines. -/
def Matched
    (t : RoutineTable) : Prop :=
  (t.routines.map Routine.ident).Perm t.idents

/- It stays so while the table grows. -/
theorem Matched.grows
    {needed : ResolvedType → Prop}
    {t t' : RoutineTable}
    (h : Matched t)
    (hGrows : t.Grows needed t') :
    Matched t' := by
  rcases hGrows.routines with
    ⟨added, made, hRecorded, hRoutines, hPerm, _⟩
  unfold Matched RoutineTable.idents
  rw [hRecorded, hRoutines, List.map_append, List.map_append]
  exact h.append hPerm

variable {text : String}
variable {s : ResolvedSchema}

/- So it is behind the messages of a schema. -/
theorem ready_messageItems
    (h : compile text = .ok s)
    (encoding : Encoding)
    {ms : List (Message TypeRef)}
    (hms : ∀ m ∈ ms, m ∈ s.messages)
    {t : RoutineTable}
    (hReady : t.Ready s)
    (ht : Matched t) :
    ((ms.mapM (messageItem encoding)).run t).2.Ready s ∧
      Matched ((ms.mapM (messageItem encoding)).run t).2 := by
  induction ms generalizing t with
  | nil => exact ⟨hReady, ht⟩
  | cons m rest ih =>
      rcases List.forall_mem_cons.mp hms with ⟨hm, hRest⟩
      rcases hHead : (messageItem encoding m).run t with
        ⟨item, t'⟩
      rcases hRuns :
          (rest.mapM (messageItem encoding)).run t' with
        ⟨items, t''⟩
      rw [run_mapM_cons hHead hRuns]
      suffices hNext : t'.Ready s ∧ Matched t' by
        have hLast := ih hRest hNext.1 hNext.2
        rwa [hRuns] at hLast
      cases encoding with
      | json =>
          obtain rfl : t = t' := congrArg Prod.snd hHead
          exact ⟨hReady, ht⟩
      | binary =>
          rcases RoutineTable.grows_codecOf h hm hReady with
            ⟨c, t₁, hRun, _, _, hReady', hGrows⟩
          have hTable :
              (messageItem .binary m).run t =
                (binaryMessage m c, t₁) :=
            congrArg (Prod.map (binaryMessage m) id) hRun
          obtain rfl : t₁ = t' :=
            congrArg Prod.snd (hTable.symm.trans hHead)
          exact ⟨hReady', ht.grows hGrows⟩

/- The text of the routines of a table, if there are any. -/
theorem routinesCode_eq
    {t : RoutineTable}
    (h : Matched t) :
    (if t.recorded.isEmpty then
        []
      else
        [trimNewlines t.code]) =
      (if t.routines.isEmpty then
          []
        else
          [(t.routines.map routineItem).flatMap
            RoutineItem.blocks]).map fileText := by
  have hLength : t.routines.length = t.recorded.length := by
    have hSame := h.length_eq
    rwa [RoutineTable.idents, List.length_map,
      List.length_map] at hSame
  have hEmpty : t.recorded.isEmpty = t.routines.isEmpty := by
    rw [Bool.eq_iff_iff, List.isEmpty_iff_length_eq_zero,
      List.isEmpty_iff_length_eq_zero, hLength]
  rw [hEmpty]
  split
  · rfl
  · next hNotEmpty =>
      rw [trimNewlines_tableCode
        (fun hNil => hNotEmpty (by simp [hNil]))]
      rfl

/- The text of some texts of blocks. -/
theorem lines_map_fileText
    {parts : List (List (List String))}
    (h : ∀ part ∈ parts, part ≠ []) :
    lines (parts.map fileText) = fileText parts.flatten := by
  have hText :
      parts.map fileText =
        (parts.map (List.map unlines)).map lines := by
    simp [fileText]
  have hParts :=
    lines_map_lines [] (parts.map (List.map unlines))
      (by simpa using h)
  rw [hText]
  simpa [fileText] using hParts

/- The parts of a file, each with its blocks. -/
def fileParts
    (sourceName : String)
    (p : Program) :
    List (List (List String)) :=
  [[headLine sourceName]] :: p.enums.map EnumItem.blocks ++
    (p.messages.flatMap MessageItem.blocks).map (fun b => [b]) ++
    (if p.routines.isEmpty then
      []
    else
      [p.routines.flatMap RoutineItem.blocks])

theorem flatten_fileParts
    (sourceName : String)
    (p : Program) :
    (fileParts sourceName p).flatten =
      fileBlocks sourceName p := by
  have hSingles (blocks : List (List String)) :
      (blocks.map fun b => [b]).flatten = blocks := by
    rw [← List.flatMap_def, List.flatMap_singleton']
  unfold fileParts fileBlocks Program.blocks
  rw [List.flatten_append, List.flatten_append, hSingles,
    List.flatten_cons, ← List.flatMap_def]
  rcases p.routines with _ | ⟨r, rs⟩ <;> simp

theorem fileParts_ne_nil
    {sourceName : String}
    {p : Program} :
    ∀ part ∈ fileParts sourceName p, part ≠ [] := by
  intro part hPart
  unfold fileParts at hPart
  simp only [List.mem_append, List.mem_cons, List.mem_map] at hPart
  rcases hPart with
    ((rfl | ⟨e, _, rfl⟩) | ⟨b, _, rfl⟩) | hRoutines
  · exact List.cons_ne_nil _ _
  · exact List.cons_ne_nil _ _
  · exact List.cons_ne_nil _ _
  · rcases p with ⟨enums, messages, _ | ⟨r, rs⟩⟩
    · cases hRoutines
    · obtain rfl := List.mem_singleton.mp hRoutines
      exact List.cons_ne_nil _ _

theorem header_eq
    (sourceName : String) :
    header sourceName =
      headLine sourceName ++ "\n" ++ unlines [] := by
  have hEnd : ". DO NOT EDIT." ++ "\n" = ". DO NOT EDIT.\n" :=
    rfl
  unfold header headLine
  simp only [String.append_assoc, hEnd, unlines_nil,
    String.append_empty]

/- The generated text is the text of the program. -/
theorem typesCode_eq
    (h : compile text = .ok s)
    (sourceName : String)
    (encoding : Encoding) :
    typesCode sourceName encoding s =
      fileText
        (fileBlocks sourceName
          (Program.ofSchema encoding s)) := by
  have hMatched :=
    (ready_messageItems h encoding (fun _ hm => hm)
      RoutineTable.ready_empty .nil).2
  rw [← flatten_fileParts, ← lines_map_fileText fileParts_ne_nil]
  unfold typesCode Program.ofSchema
  rw [run_mapM_messageCode]
  rcases hRun :
      (s.messages.mapM (messageItem encoding)).run
        RoutineTable.empty with
    ⟨items, t⟩
  rw [hRun] at hMatched
  have hBlock (b : List String) : fileText [b] = unlines b := by
    rw [fileText, List.map_singleton, lines_singleton]
  have hHeader :
      header sourceName = fileText [[headLine sourceName]] := by
    rw [hBlock, unlines_cons]
    exact header_eq sourceName
  have hEnums :
      s.enums.map (enumCode encoding) =
        ((s.enums.map (enumItem encoding)).map
          EnumItem.blocks).map fileText := by
    simp only [List.map_map]
    exact List.map_congr_left fun e _ => enumCode_eq encoding e
  have hMessages :
      (items.map fun item => item.blocks.map unlines).flatten =
        ((items.flatMap MessageItem.blocks).map
          fun b => [b]).map fileText := by
    simp only [List.map_map, Function.comp_def, hBlock]
    rw [List.map_flatMap, List.flatMap_def]
  have hRoutines :
      (if t.routines.isEmpty then
          []
        else
          [(t.routines.map routineItem).flatMap
            RoutineItem.blocks]) =
        if (t.routines.map routineItem).isEmpty then
          []
        else
          [(t.routines.map routineItem).flatMap
            RoutineItem.blocks] := by
    rw [List.isEmpty_map]
  simp only [Prod.map_apply, id_eq, routinesCode_eq hMatched,
    hHeader, hEnums, hMessages, hRoutines, fileParts,
    List.map_append, List.map_cons, List.singleton_append]

end Generated

end TagWire
