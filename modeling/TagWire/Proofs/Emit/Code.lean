import TagWire.Proofs.Emit.Uses
import TagWire.Proofs.Schema.Resolution

/-
  What the generated codecs define and call. The code of a
  type has one routine that writes and one that reads, and
  calls those of the types inside it; the code of a message
  calls those of the types of its fields.

  Main declarations:
    * `Emit.Routine.Worded`
    * `Emit.Routine.uses_code`
    * `Emit.RoutineTable.definitions_code`
    * `Emit.RoutineTable.mem_calls_code`
    * `Emit.MessageCodec.uses_code`
    * `Emit.MessageCodec.mem_calls_code`
-/

------------------------------------------------------------
-- Types
------------------------------------------------------------

namespace TagWire

namespace Emit

/- The names in a type are words. -/
def TypeWorded
    (type : ResolvedType) : Prop :=
  ∀ r, TypeExpr.Part (.named r) type → IsWord r.name

theorem silent_scalarType
    (kind : ScalarKind) :
    Silent (scalarType kind) := by
  match kind with
  | .num (.int k) => cases k <;> exact fun _ => rfl
  | .num (.float k) => cases k <;> exact fun _ => rfl
  | .string => exact fun _ => rfl

theorem silent_typeIdent
    {name : String}
    (h : IsWord name) :
    Silent (Names.typeIdent name) :=
  silent_of_isWord (isWord_escape h)

theorem silent_listOf
    {element : String}
    (h : Silent element) :
    Silent (listOf element) := by
  have hFront : Silent "::std::vec::Vec<" := fun _ => rfl
  have hBack : Silent ">" := fun _ => rfl
  exact (hFront.append h).append hBack

theorem silent_mapOf
    {key value : String}
    (hKey : Silent key)
    (hValue : Silent value) :
    Silent (mapOf key value) := by
  have hFront : Silent (mapName ++ "<") := fun _ => rfl
  have hBetween : Silent ", " := fun _ => rfl
  have hBack : Silent ">" := fun _ => rfl
  exact
    (((hFront.append hKey).append hBetween).append
      hValue).append hBack

theorem silent_elementType
    {type : ResolvedType}
    (h : TypeWorded type) :
    Silent (elementType type) := by
  induction type with
  | scalar kind => exact silent_scalarType kind
  | named r => exact silent_typeIdent (h r .refl)
  | list element ih =>
      exact silent_listOf (ih fun r hr => h r (.element hr))
  | map key value ih =>
      exact silent_mapOf (silent_scalarType key)
        (ih fun r hr => h r (.value hr))

theorem silent_wireResult
    {value : String}
    (h : Silent value) :
    Silent (wireResult value) := by
  have hFront : Silent "::std::result::Result<" :=
    silent_of_not_mem (by simp)
  have hBetween : Silent ", " := silent_of_not_mem (by simp)
  have hError : Silent wireError :=
    silent_of_not_mem (by simp [wireError])
  have hBack : Silent ">" := silent_of_not_mem (by simp)
  exact
    (((hFront.append h).append hBetween).append hError).append
      hBack

end Emit

end TagWire

------------------------------------------------------------
-- Transfers
------------------------------------------------------------

namespace TagWire

namespace Emit

namespace Place

/- A place is given by a word. -/
def Worded : Place → Prop
| referent reference => IsWord reference
| field ident => IsWord ident

theorem Worded.silent_value
    {p : Place}
    (h : p.Worded) :
    Silent p.value := by
  cases p with
  | referent reference =>
      have hFront : Silent "*" := silent_of_not_mem (by simp)
      exact hFront.append (silent_of_isWord h)
  | field ident =>
      have hFront : Silent "self." := silent_of_not_mem (by simp)
      exact hFront.append (silent_of_isWord h)

theorem Worded.silent_borrow
    {p : Place}
    (h : p.Worded) :
    Silent p.borrow := by
  cases p with
  | referent reference => exact silent_of_isWord h
  | field ident =>
      have hFront : Silent "&self." := silent_of_not_mem (by simp)
      exact hFront.append (silent_of_isWord h)

end Place

namespace Transfer

/- The names in a transfer are words. -/
def Worded : Transfer → Prop
| scalar _ => True
| enum name => IsWord name
| routine ident => IsWord ident

/- The calls of the routines that write some values. -/
def writing
    (idents : List String) :
    List Use :=
  idents.map fun ident => .call (writerName ident)

/- The calls of the routines that read some values. -/
def reading
    (idents : List String) :
    List Use :=
  idents.map fun ident => .call (readerName ident)

theorem reading_append
    (idents idents' : List String) :
    reading (idents ++ idents') =
      reading idents ++ reading idents' :=
  List.map_append

/- The names of the two routines of a type. -/
def namesOf
    (ident : String) :
    List String :=
  [writerName ident, readerName ident]

/-
  The uses of two functions, of which one writes and the other
  one reads, and each calls the same routines.
-/
def pairUses
    (writer reader : String)
    (callees : List String) :
    List Use :=
  .definition writer ::
    (writing callees ++ .definition reader :: reading callees)

theorem definitions_pairUses
    (writer reader : String)
    (callees : List String) :
    (pairUses writer reader callees).filterMap
        Use.definition? =
      [writer, reader] := by
  have hWriting :
      (writing callees).filterMap Use.definition? = [] := by
    simp [writing, Use.definition?]
  have hReading :
      (reading callees).filterMap Use.definition? = [] := by
    simp [reading, Use.definition?]
  simp [pairUses, Use.definition?, hWriting, hReading]

theorem mem_calls_pairUses
    (writer reader : String)
    (callees : List String)
    (name : String) :
    name ∈ (pairUses writer reader callees).filterMap
        Use.call? ↔
      ∃ callee ∈ callees, name ∈ namesOf callee := by
  have hWriting :
      (writing callees).filterMap Use.call? =
        callees.map writerName := by
    simp [writing, Use.call?, Function.comp_def]
  have hReading :
      (reading callees).filterMap Use.call? =
        callees.map readerName := by
    simp [reading, Use.call?, Function.comp_def]
  simp only [pairUses, List.filterMap_cons,
    List.filterMap_append, Use.call?, hWriting, hReading,
    List.mem_append, List.mem_map, namesOf, List.mem_cons,
    List.not_mem_nil, or_false]
  constructor
  · rintro (⟨callee, hCallee, rfl⟩ | ⟨callee, hCallee, rfl⟩)
    · exact ⟨callee, hCallee, .inl rfl⟩
    · exact ⟨callee, hCallee, .inr rfl⟩
  · rintro ⟨callee, hCallee, rfl | rfl⟩
    · exact .inl ⟨callee, hCallee, rfl⟩
    · exact .inr ⟨callee, hCallee, rfl⟩

private theorem silent_writeNumber
    (kind : NumKind) :
    Silent
      ("bb.write_" ++ (ScalarKind.num kind).name ++ "(") := by
  cases kind with
  | int k => cases k <;> exact fun _ => rfl
  | float k => cases k <;> exact fun _ => rfl

private theorem silent_readNumber
    (kind : NumKind) :
    Silent
      ("bb.read_" ++ (ScalarKind.num kind).name ++ "()?") := by
  cases kind with
  | int k => cases k <;> exact fun _ => rfl
  | float k => cases k <;> exact fun _ => rfl

/- A routine that is named is called, and nothing else is. -/
theorem usesFrom_write
    {t : Transfer}
    {p : Place}
    {before : List Char}
    (ht : t.Worded)
    (hp : p.Worded)
    (hBefore : Opens before) :
    usesFrom before (t.write p).toList = writing t.calls := by
  cases t with
  | scalar kind =>
      have hSilent : Silent ((scalar kind).write p) := by
        match kind with
        | .string =>
            have hFront : Silent "bb.write_string(" :=
              fun _ => rfl
            have hBack : Silent ")?;" :=
              silent_of_not_mem (by simp)
            exact (hFront.append hp.silent_borrow).append hBack
        | .num k =>
            have hBack : Silent ");" :=
              silent_of_not_mem (by simp)
            exact
              ((silent_writeNumber k).append
                hp.silent_value).append hBack
      exact hSilent before
  | enum name =>
      have hFront : Silent "bb.write_uint32(" := fun _ => rfl
      have hBack : Silent " as u32);" :=
        silent_of_not_mem (by simp)
      exact (hFront.append hp.silent_value).append hBack before
  | routine ident =>
      have hBack : Silent ", bb)?;" := silent_of_not_mem (by simp)
      have hText :
          (routine ident).write p =
            writerName ident ++ "(" ++ (p.borrow ++ ", bb)?;") :=
        String.append_assoc
      rw [hText]
      exact usesFrom_routine (isWord_writerName ht)
        (isRoutineName_writerName ident) hBefore
        (hp.silent_borrow.append hBack)

theorem usesFrom_read
    {t : Transfer}
    {before : List Char}
    (ht : t.Worded)
    (hBefore : Opens before) :
    usesFrom before t.read.toList = reading t.calls := by
  cases t with
  | scalar kind =>
      match kind with
      | .string => rfl
      | .num k => exact silent_readNumber k before
  | enum name =>
      have hFront : Silent "<" := silent_of_not_mem (by simp)
      have hBetween :
          Silent " as ::std::convert::TryFrom<u32>>" :=
        silent_of_not_mem (by simp)
      have hBack : Silent "::try_from(bb.read_uint32()?)?" :=
        fun _ => rfl
      exact
        ((hFront.append (silent_typeIdent ht)).append
          hBetween).append hBack before
  | routine ident =>
      have hBack : Silent "bb)?" := silent_of_not_mem (by simp)
      have hText :
          (routine ident).read =
            readerName ident ++ "(" ++ "bb)?" := by
        rw [String.append_assoc]
        rfl
      rw [hText]
      exact usesFrom_routine (isWord_readerName ht)
        (isRoutineName_readerName ident) hBefore hBack

/- A line that writes a value. -/
theorem uses_write
    {t : Transfer}
    {p : Place}
    {front : String}
    (ht : t.Worded)
    (hp : p.Worded)
    (hFront : Silent front)
    (hOpens : Opens front.toList.reverse) :
    uses (front ++ t.write p) = writing t.calls := by
  rw [uses_behind hFront, usesFrom_write ht hp hOpens]

/- A line that reads a value. -/
theorem uses_read
    {t : Transfer}
    {front back : String}
    (ht : t.Worded)
    (hFront : Silent front)
    (hOpens : Opens front.toList.reverse)
    (hBack : Silent back) :
    uses (front ++ t.read ++ back) = reading t.calls := by
  rw [String.append_assoc, uses_behind hFront,
    usesFrom_front hBack, usesFrom_read ht hOpens]

end Transfer

end Emit

end TagWire

------------------------------------------------------------
-- Routines
------------------------------------------------------------

namespace TagWire

namespace Emit

/- The lines that open routines define them. -/
theorem uses_writerHead
    {ident value : String}
    (hIdent : IsWord ident)
    (hValue : Silent value) :
    uses (Routine.writerHead ident value) =
      [.definition (Transfer.writerName ident)] := by
  have hFront : Silent "value: &" := silent_of_not_mem (by simp)
  have hBetween : Silent (", " ++ writeParameter) :=
    silent_of_not_mem (by simp [writeParameter])
  have hBack : Silent (opening (") -> " ++ wireResult "()")) :=
    fun _ => rfl
  have hText :
      Routine.writerHead ident value =
        "fn " ++ (Transfer.writerName ident ++ "(" ++
          ("value: &" ++ value ++ (", " ++ writeParameter) ++
            opening (") -> " ++ wireResult "()"))) := by
    have hOpen : "(value: &" = "(" ++ "value: &" := rfl
    rw [Routine.writerHead, hOpen]
    simp only [opening, String.append_assoc]
  rw [hText]
  exact uses_function (isWord_writerName hIdent)
    (((hFront.append hValue).append hBetween).append hBack)

theorem uses_readerHead
    {ident value : String}
    (hIdent : IsWord ident)
    (hValue : Silent value) :
    uses (Routine.readerHead ident value) =
      [.definition (Transfer.readerName ident)] := by
  have hFront : Silent (readParameter ++ ") -> ") :=
    silent_of_not_mem (by simp [readParameter])
  have hText :
      Routine.readerHead ident value =
        "fn " ++ (Transfer.readerName ident ++ "(" ++
          opening
            (readParameter ++ ") -> " ++ wireResult value)) := by
    simp only [Routine.readerHead, opening, String.append_assoc]
  rw [hText]
  exact uses_function (isWord_readerName hIdent)
    (hFront.append (silent_wireResult hValue)).opening

namespace Routine

/- The names in a pair of routines are words. -/
def Worded
    (r : Routine) : Prop :=
  IsWord r.ident ∧
    match r.body with
    | .list element transfer =>
        TypeWorded element ∧ transfer.Worded
    | .map _ value transfer => TypeWorded value ∧ transfer.Worded
    | .message name => IsWord name

private theorem isWord_k :
    IsWord "k" :=
  isWord_of_isIdentifier (by decide)

private theorem isWord_v :
    IsWord "v" :=
  isWord_of_isIdentifier (by decide)

private theorem opens_indent :
    Opens "        ".toList.reverse :=
  ⟨rfl, by simp, by simp [List.cons_prefix_cons]⟩

/- The lines of routines that are the same for all types. -/
private theorem uses_plain :
    uses "" = [] ∧
    uses "    bb.write_len(value.len())?;" = [] ∧
    uses (opening "    for v in value") = [] ∧
    uses (opening "    for (k, v) in value") = [] ∧
    uses (closing "    ") = [] ∧
    uses "    Ok(())" = [] ∧
    uses Text.rightBrace = [] ∧
    uses "    let len = bb.read_len()?;" = [] ∧
    uses ("    let mut value = ::std::vec::Vec::with_capacity(" ++
      "len.min(bb.remaining().len()));") = [] ∧
    uses ("    let mut value = " ++ mapName ++ "::new();") = [] ∧
    uses (opening "    for _ in 0..len") = [] ∧
    uses "        value.insert(k, v);" = [] ∧
    uses "    Ok(value)" = [] ∧
    uses "    ::dgen::wire::Message::marshal_into(value, bb)" =
      [] ∧
    uses ("    let consumed = " ++
      "::dgen::wire::Message::marshal(&value)?.len();") = [] ∧
    uses "    bb.skip(consumed)?;" = [] := by
  decide +kernel

private theorem uses_listCode
    {ident : String}
    {element : ResolvedType}
    {transfer : Transfer}
    (hIdent : IsWord ident)
    (hElement : TypeWorded element)
    (hTransfer : transfer.Worded) :
    uses (listCode ident element transfer) =
      Transfer.pairUses (Transfer.writerName ident)
        (Transfer.readerName ident) transfer.calls := by
  have hType := silent_elementType hElement
  have hOpen : Silent "[" := silent_of_not_mem (by simp)
  have hClose : Silent "]" := silent_of_not_mem (by simp)
  have hWriter :=
    uses_writerHead hIdent ((hOpen.append hType).append hClose)
  have hReader := uses_readerHead hIdent (silent_listOf hType)
  have hWrite :
      uses ("        " ++ transfer.write (.referent "v")) =
        Transfer.writing transfer.calls :=
    Transfer.uses_write hTransfer isWord_v
      (silent_of_not_mem (by simp)) opens_indent
  have hRead :
      uses ("        value.push(" ++ transfer.read ++ ");") =
        Transfer.reading transfer.calls :=
    Transfer.uses_read hTransfer (fun _ => rfl)
      ⟨rfl, by simp, by simp [List.cons_prefix_cons]⟩
      (silent_of_not_mem (by simp))
  rw [listCode, uses_lines]
  simp only [List.flatMap_cons, List.flatMap_nil, hWriter,
    hReader, hWrite, hRead, uses_plain, List.nil_append,
    List.append_nil]
  rfl

private theorem uses_mapCode
    {ident : String}
    {key : ScalarKind}
    {value : ResolvedType}
    {transfer : Transfer}
    (hIdent : IsWord ident)
    (hValue : TypeWorded value)
    (hTransfer : transfer.Worded) :
    uses (mapCode ident key value transfer) =
      Transfer.pairUses (Transfer.writerName ident)
        (Transfer.readerName ident) transfer.calls := by
  have hType :=
    silent_mapOf (silent_scalarType key)
      (silent_elementType hValue)
  have hWriter := uses_writerHead hIdent hType
  have hReader := uses_readerHead hIdent hType
  have hIndent : Silent "        " := silent_of_not_mem (by simp)
  have hEnd : Silent ";" := silent_of_not_mem (by simp)
  have hWriteKey :
      uses ("        " ++
        (Transfer.scalar key).write (.referent "k")) = [] :=
    Transfer.uses_write trivial isWord_k hIndent opens_indent
  have hWrite :
      uses ("        " ++ transfer.write (.referent "v")) =
        Transfer.writing transfer.calls :=
    Transfer.uses_write hTransfer isWord_v hIndent opens_indent
  have hReadKey :
      uses ("        let k = " ++ (Transfer.scalar key).read ++
        ";") = [] :=
    Transfer.uses_read trivial
      (silent_of_not_mem (by simp))
      (opens_binding "        let k") hEnd
  have hRead :
      uses ("        let v = " ++ transfer.read ++ ";") =
        Transfer.reading transfer.calls :=
    Transfer.uses_read hTransfer
      (silent_of_not_mem (by simp))
      (opens_binding "        let v") hEnd
  rw [mapCode, uses_lines]
  simp only [List.flatMap_cons, List.flatMap_nil, hWriter,
    hReader, hWriteKey, hWrite, hReadKey, hRead, uses_plain,
    List.nil_append, List.append_nil]
  rfl

private theorem uses_messageCode
    {ident name : String}
    (hIdent : IsWord ident)
    (hName : IsWord name) :
    uses (messageCode ident name) =
      Transfer.pairUses (Transfer.writerName ident)
        (Transfer.readerName ident) [] := by
  have hType := silent_typeIdent hName
  have hWriter := uses_writerHead hIdent hType
  have hReader := uses_readerHead hIdent hType
  have hFront : Silent "    let value = <" :=
    silent_of_not_mem (by simp)
  have hBetween : Silent " as ::dgen::wire::Message>" :=
    silent_of_not_mem (by simp)
  have hBack : Silent "::unmarshal(bb.remaining())?;" :=
    fun _ => rfl
  have hRead :=
    (((hFront.append hType).append hBetween).append
      hBack).uses_eq
  rw [messageCode, uses_lines]
  simp only [List.flatMap_cons, List.flatMap_nil, hWriter,
    hReader, hRead, uses_plain, List.nil_append,
    List.append_nil]
  rfl

/-
  A pair of routines is defined by its code, and no other
  routines are called in it than those of the type it is for.
-/
theorem uses_code
    {r : Routine}
    (h : r.Worded) :
    uses r.code =
      Transfer.pairUses (Transfer.writerName r.ident)
        (Transfer.readerName r.ident) r.calls := by
  rcases r with ⟨ident, body⟩
  rcases h with ⟨hIdent, hBody⟩
  cases body with
  | list element transfer =>
      exact uses_listCode hIdent hBody.1 hBody.2
  | map key value transfer =>
      exact uses_mapCode hIdent hBody.1 hBody.2
  | message name => exact uses_messageCode hIdent hBody

end Routine

end Emit

end TagWire

------------------------------------------------------------
-- Tables
------------------------------------------------------------

namespace TagWire

namespace Emit

namespace Routine

theorem ended_code
    (r : Routine) :
    Ended r.code := by
  rcases r with ⟨ident, body⟩
  cases body with
  | list element transfer =>
      simp only [code, listCode]
      exact ended_lines (by simp) (by simp)
  | map key value transfer =>
      simp only [code, mapCode]
      exact ended_lines (by simp) (by simp)
  | message name =>
      simp only [code, messageCode]
      exact ended_lines (by simp) (by simp)

end Routine

namespace RoutineTable

variable {t : RoutineTable}

/- The code of a table is that of its routines. -/
theorem uses_code
    (h : ∀ r ∈ t.routines, r.Worded) :
    uses t.code =
      t.routines.flatMap fun r =>
        Transfer.pairUses (Transfer.writerName r.ident)
          (Transfer.readerName r.ident) r.calls := by
  have hCodes :
      ∀ part ∈ t.routines.map Routine.code, Ended part :=
    List.forall_mem_map.mpr fun r _ => r.ended_code
  have hJoin := uses_join hCodes ""
  have hEmpty : uses "" = [] := rfl
  rw [String.append_empty, hEmpty, List.append_nil] at hJoin
  rw [code, hJoin, List.flatMap_map]
  exact List.flatMap_congr fun r hr => Routine.uses_code (h r hr)

/- The code defines both routines of each pair. -/
theorem definitions_code
    (h : ∀ r ∈ t.routines, r.Worded) :
    definitions t.code =
      t.routines.flatMap fun r => Transfer.namesOf r.ident := by
  rw [definitions, uses_code h, List.filterMap_flatMap]
  exact List.flatMap_congr fun r _ =>
    Transfer.definitions_pairUses _ _ _

/- The code calls what its routines call. -/
theorem mem_calls_code
    (h : ∀ r ∈ t.routines, r.Worded)
    {name : String} :
    name ∈ calls t.code ↔
      ∃ r ∈ t.routines, ∃ callee ∈ r.calls,
        name ∈ Transfer.namesOf callee := by
  rw [calls, uses_code h, List.filterMap_flatMap,
    List.mem_flatMap]
  simp only [Transfer.mem_calls_pairUses]

end RoutineTable

end Emit

end TagWire

------------------------------------------------------------
-- Codecs of Messages
------------------------------------------------------------

namespace TagWire

namespace Emit

namespace FieldCodec

/- The names in the transfer of a field are words. -/
structure Worded
    (c : FieldCodec) : Prop where
  name : IsWord c.field.name
  transfer : c.transfer.Worded

variable {c : FieldCodec}

theorem Worded.place
    (h : c.Worded) :
    c.place.Worded :=
  isWord_escape (isWord_snakeCase h.name)

private theorem silent_presence
    (h : c.Worded) :
    Silent ("        if " ++ c.presence) := by
  have hIf : Silent "        if " := silent_of_not_mem (by simp)
  have hNot : Silent "!" := silent_of_not_mem (by simp)
  have hEmpty : Silent ".is_empty()" := fun _ => rfl
  have hZero : Silent " != 0" := silent_of_not_mem (by simp)
  have hZeroPoint : Silent " != 0.0" :=
    silent_of_not_mem (by simp)
  have hValue := h.place.silent_value
  have hFilled :
      Silent ("        if " ++
        ("!" ++ c.place.value ++ ".is_empty()")) :=
    hIf.append ((hNot.append hValue).append hEmpty)
  unfold presence
  split
  · exact hFilled
  · exact hFilled
  · exact hFilled
  · exact hIf.append (hValue.append hZeroPoint)
  · exact hIf.append (hValue.append hZero)
  · have hOpen : Silent ("        if " ++ "(") := fun _ => rfl
    have hBack : Silent " as u32) != 0" := fun _ => rfl
    rw [← String.append_assoc, ← String.append_assoc]
    exact (hOpen.append hValue).append hBack
  · have hSome : Silent "let Some(value) = " := fun _ => rfl
    exact hIf.append (hSome.append h.place.silent_borrow)

private theorem silent_otherwise
    {error : String}
    (h : c.Worded)
    (hError : IsWord error) :
    Silent (c.otherwise error) := by
  unfold otherwise
  split
  · exact fun _ => rfl
  · have hReturn : Silent "            return Err(" :=
      fun _ => rfl
    have hWireError : Silent wireError :=
      silent_of_not_mem (by simp [wireError])
    have hBack : Silent ".to_string()));" := fun _ => rfl
    have hText :
        "            return Err(" ++ wireError ++ "::" ++
            error ++ "(" ++ Text.inspect c.field.name ++
            ".to_string()));" =
          "            return Err(" ++ wireError ++
            ("::" ++ error ++ "(") ++
            Text.inspect c.field.name ++ ".to_string()));" := by
      simp only [String.append_assoc]
    apply silent_lines
    rw [hText]
    simp only [List.forall_mem_cons]
    refine ⟨fun _ => rfl, ?_, fun _ => rfl, by simp⟩
    exact
      (((hReturn.append hWireError).append
        (silent_qualified hError)).append
          (silent_inspect h.name)).append hBack

private theorem isWord_missingField :
    IsWord "MissingField" :=
  isWord_of_isIdentifier (by decide)

private theorem isWord_fieldNotFound :
    IsWord "FieldNotFound" :=
  isWord_of_isIdentifier (by decide)

private theorem opens_indent :
    Opens "            ".toList.reverse :=
  ⟨rfl, by simp, by simp [List.cons_prefix_cons]⟩

/- A field is written as a value of its type is. -/
theorem uses_write
    (h : c.Worded) :
    uses ("            " ++ c.write) =
      Transfer.writing c.transfer.calls := by
  have hIndent : Silent "            " :=
    silent_of_not_mem (by simp)
  have hValue : IsWord "value" :=
    isWord_of_isIdentifier (by decide)
  unfold write
  split
  · exact Transfer.uses_write h.transfer hValue hIndent
      opens_indent
  · exact Transfer.uses_write h.transfer h.place hIndent
      opens_indent

/- A field is read as a value of its type is. -/
theorem usesFrom_read
    {before : List Char}
    (h : c.Worded)
    (hBefore : Opens before) :
    usesFrom before c.read.toList =
      Transfer.reading c.transfer.calls := by
  unfold read
  split
  · have hText :
        "Some(::std::boxed::Box::new(" =
          "Some" ++ "(" ++ "::std::boxed::Box::new(" := rfl
    have hSome :
        usesFrom before "Some(::std::boxed::Box::new(".toList =
          [] := by
      rw [hText]
      exact usesFrom_foreign
        (isWord_of_isIdentifier (by decide))
        (by decide +kernel) hBefore (fun _ => rfl)
    have hOpens :
        Opens ("Some(::std::boxed::Box::new(".toList.reverse ++
          before) :=
      opens_bracket _
    have hBack : Silent "))" := silent_of_not_mem (by simp)
    rw [usesFrom_front hBack, String.toList_append,
      usesFrom_append, hSome,
      Transfer.usesFrom_read h.transfer hOpens]
    rfl
  · exact Transfer.usesFrom_read h.transfer hBefore

/- The code that writes a field does nothing else. -/
theorem uses_writeCode
    (h : c.Worded) :
    uses c.writeCode = Transfer.writing c.transfer.calls := by
  have hIndent : Silent "            bb.write_tag(" :=
    fun _ => rfl
  have hTagEnd : Silent ");" := silent_of_not_mem (by simp)
  have hClose : Silent (closing "        ") := fun _ => rfl
  have hPresence := (silent_presence h).opening.uses_eq
  have hTag :=
    ((hIndent.append
      (silent_of_isWord (isWord_toString c.field.seq.toNat))).append
        hTagEnd).uses_eq
  have hOtherwise :=
    (hClose.append
      (silent_otherwise h isWord_missingField)).uses_eq
  have hEmpty : uses "" = [] := rfl
  rw [writeCode, uses_lines]
  simp only [List.flatMap_cons, List.flatMap_nil, hPresence,
    hTag, uses_write h, hOtherwise, hEmpty, List.nil_append,
    List.append_nil]

/- Nor does the code that reads it. -/
theorem uses_readCode
    (isLast : Bool)
    (h : c.Worded) :
    uses (c.readCode isLast) =
      Transfer.reading c.transfer.calls := by
  have hIf : Silent "        if seq == Some(" := fun _ => rfl
  have hBracket : Silent ")" := silent_of_not_mem (by simp)
  have hIndent : Silent "            x." :=
    silent_of_not_mem (by simp)
  have hIs : Silent " = " := silent_of_not_mem (by simp)
  have hEnd : Silent ";" := silent_of_not_mem (by simp)
  have hClose : Silent (closing "        ") := fun _ => rfl
  have hIdent : Silent c.ident := silent_of_isWord h.place
  have hCondition :=
    ((hIf.append
      (silent_of_isWord
        (isWord_toString c.field.seq.toNat))).append
          hBracket).opening.uses_eq
  have hOtherwise :=
    (hClose.append
      (silent_otherwise h isWord_fieldNotFound)).uses_eq
  have hRead :
      uses ("            x." ++ c.ident ++ " = " ++ c.read ++
        ";") =
        Transfer.reading c.transfer.calls := by
    rw [String.append_assoc,
      uses_behind ((hIndent.append hIdent).append hIs),
      usesFrom_front hEnd,
      usesFrom_read h (opens_binding _)]
  have hNext :
      (if isLast then
        []
      else
        ["            seq = bb.read_tag();"]).flatMap uses =
        [] := by
    split
    · rfl
    · decide +kernel
  have hEmpty : uses "" = [] := rfl
  rw [readCode, uses_lines]
  simp only [List.flatMap_append, List.flatMap_cons,
    List.flatMap_nil, hCondition, hRead, hNext, hOtherwise,
    hEmpty, List.nil_append, List.append_nil]

theorem ended_writeCode
    (c : FieldCodec) :
    Ended c.writeCode :=
  ended_lines (by simp) (by simp)

theorem ended_readCode
    (isLast : Bool)
    (c : FieldCodec) :
    Ended (c.readCode isLast) := by
  cases isLast with
  | false => exact ended_lines (by simp) (by simp)
  | true => exact ended_lines (by simp) (by simp)

end FieldCodec

namespace MessageCodec

/- The names in the codec of a message are words. -/
structure Worded
    (c : MessageCodec) : Prop where
  name : IsWord c.name
  fields : ∀ f ∈ c.fields, f.Worded

theorem uses_readFieldsCode
    {fields : List FieldCodec}
    (h : ∀ f ∈ fields, f.Worded)
    (rest : String) :
    uses (readFieldsCode fields ++ rest) =
      Transfer.reading
        (fields.flatMap fun f => f.transfer.calls) ++
        uses rest := by
  induction fields with
  | nil => simp [readFieldsCode, Transfer.reading]
  | cons c fields ih =>
      rcases List.forall_mem_cons.mp h with ⟨hc, hFields⟩
      rw [readFieldsCode, String.append_assoc,
        uses_append_of_ended (c.ended_readCode _), ih hFields,
        FieldCodec.uses_readCode _ hc, List.flatMap_cons,
        Transfer.reading_append, List.append_assoc]

theorem uses_writeFieldsCode
    {fields : List FieldCodec}
    (h : ∀ f ∈ fields, f.Worded)
    (rest : String) :
    uses (String.join (fields.map FieldCodec.writeCode) ++
        rest) =
      Transfer.writing
        (fields.flatMap fun f => f.transfer.calls) ++
        uses rest := by
  have hEnded :
      ∀ part ∈ fields.map FieldCodec.writeCode, Ended part :=
    List.forall_mem_map.mpr fun f _ => f.ended_writeCode
  rw [uses_join hEnded, List.flatMap_map,
    List.flatMap_congr fun f hf =>
      FieldCodec.uses_writeCode (h f hf),
    Transfer.writing, List.map_flatMap]
  rfl

private theorem uses_codecHead
    {name : String}
    (h : IsWord name) :
    uses (codecHead name) = [] := by
  have hFront : Silent "impl ::dgen::wire::Message for " :=
    silent_of_not_mem (by simp)
  exact (hFront.append (silent_typeIdent h)).opening.uses_eq

/- The lines of codecs that are the same for all messages. -/
private theorem uses_plain :
    uses "" = [] ∧
    uses (writeHead ("_" ++ writeParameter)) =
      [.definition "marshal_into"] ∧
    uses (writeHead writeParameter) =
      [.definition "marshal_into"] ∧
    uses "        Ok(())" = [] ∧
    uses (closing "    ") = [] ∧
    uses (readHead "_data") = [.definition "unmarshal"] ∧
    uses (readHead "data") = [.definition "unmarshal"] ∧
    uses "        Ok(Self::default())" = [] ∧
    uses Text.rightBrace = [] ∧
    uses ("        let bb = &mut " ++
      "::dgen::wire::ByteBuffer::new(data);") = [] ∧
    uses "        let mut x = Self::default();" = [] ∧
    uses "        Ok(x)" = [] := by
  decide +kernel

private theorem uses_tagBinding
    (c : MessageCodec) :
    uses ("        " ++
      (if c.fields.length = 1 then
        "let seq"
      else
        "let mut seq") ++ " = bb.read_tag();") = [] := by
  split
  · decide +kernel
  · decide +kernel

/-
  The two functions of a message are defined by its codec, and
  no other routines are called in it than those of its fields.
-/
theorem uses_code
    {c : MessageCodec}
    (h : c.Worded) :
    uses c.code =
      Transfer.pairUses "marshal_into" "unmarshal"
        c.calls := by
  have hHead := uses_codecHead h.name
  unfold code
  split
  · next hEmpty =>
      have hCalls : c.calls = [] := by
        rw [calls, List.isEmpty_iff.mp hEmpty, List.flatMap_nil]
      rw [hCalls, emptyCode, uses_lines]
      simp only [List.flatMap_cons, List.flatMap_nil, hHead,
        uses_plain, List.nil_append, List.append_nil]
      rfl
  · have hTag := uses_tagBinding c
    dsimp only
    rw [uses_lines]
    simp only [List.flatMap_cons, List.flatMap_nil, hHead, hTag,
      uses_plain, uses_writeFieldsCode h.fields,
      uses_readFieldsCode h.fields, List.nil_append,
      List.append_nil]
    rfl

/- The codec calls the routines of its fields. -/
theorem mem_calls_code
    {c : MessageCodec}
    (h : c.Worded)
    {name : String} :
    name ∈ Emit.calls c.code ↔
      ∃ callee ∈ c.calls, name ∈ Transfer.namesOf callee := by
  rw [Emit.calls, uses_code h]
  exact Transfer.mem_calls_pairUses _ _ _ name

end MessageCodec

end Emit

end TagWire
