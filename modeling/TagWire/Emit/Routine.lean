import TagWire.Emit.Phrase

/-
  This file defines the routines that generated codecs share.
  A table remembers which types have their routines already,
  so that each is written once.

  Key definitions include:
    * `Emit.Routine`
    * `Emit.Routine.code`
    * `Emit.RoutineTable`
    * `Emit.RoutineTable.ensure`
    * `Emit.RoutineTable.transferOf`
-/

namespace TagWire

namespace Emit

open Text

------------------------------------------------------------
-- Routines
------------------------------------------------------------

/- What the two routines of a type do. -/
inductive RoutineBody where
| list (element : ResolvedType) (transfer : Transfer)
| map
    (key : ScalarKind) (value : ResolvedType)
    (transfer : Transfer)
| message (name : String)
deriving DecidableEq, Repr

/- The two routines of a type: one writes and one reads. -/
structure Routine where
  ident : String
  body : RoutineBody
deriving DecidableEq, Repr

namespace Routine

/- The routines that a pair of routines calls. -/
def calls
    (r : Routine) :
    List String :=
  match r.body with
  | .list _ transfer => transfer.calls
  | .map _ _ transfer => transfer.calls
  | .message _ => []

/- The first line of the routine that writes. -/
def writerHead
    (ident value : String) :
    String :=
  opening
    ("fn " ++ Transfer.writerName ident ++ "(value: &" ++
      value ++ ", " ++ writeParameter ++ ") -> " ++
      wireResult "()")

/- The first line of the routine that reads. -/
def readerHead
    (ident value : String) :
    String :=
  opening
    ("fn " ++ Transfer.readerName ident ++ "(" ++
      readParameter ++ ") -> " ++ wireResult value)

/- The code of the routines of a list. -/
def listCode
    (ident : String)
    (element : ResolvedType)
    (transfer : Transfer) :
    String :=
  let type := elementType element
  lines
    [
      "",
      writerHead ident ("[" ++ type ++ "]"),
      "    bb.write_len(value.len())?;",
      opening "    for v in value",
      "        " ++ transfer.write (.referent "v"),
      closing "    ",
      "    Ok(())",
      rightBrace,
      "",
      readerHead ident (listOf type),
      "    let len = bb.read_len()?;",
      "    let mut value = ::std::vec::Vec::with_capacity(" ++
        "len.min(bb.remaining().len()));",
      opening "    for _ in 0..len",
      "        value.push(" ++ transfer.read ++ ");",
      closing "    ",
      "    Ok(value)",
      rightBrace,
      ""
    ]

/- The code of the routines of a map. -/
def mapCode
    (ident : String)
    (key : ScalarKind)
    (value : ResolvedType)
    (transfer : Transfer) :
    String :=
  let type := mapOf (scalarType key) (elementType value)
  let keyTransfer := Transfer.scalar key
  lines
    [
      "",
      writerHead ident type,
      "    bb.write_len(value.len())?;",
      opening "    for (k, v) in value",
      "        " ++ keyTransfer.write (.referent "k"),
      "        " ++ transfer.write (.referent "v"),
      closing "    ",
      "    Ok(())",
      rightBrace,
      "",
      readerHead ident type,
      "    let len = bb.read_len()?;",
      "    let mut value = " ++ mapName ++ "::new();",
      opening "    for _ in 0..len",
      "        let k = " ++ keyTransfer.read ++ ";",
      "        let v = " ++ transfer.read ++ ";",
      "        value.insert(k, v);",
      closing "    ",
      "    Ok(value)",
      rightBrace,
      ""
    ]

/-
  The code of the routines of a message. It is read from all
  that is left, and written again to learn how much of that
  it took up.
-/
def messageCode
    (ident : String)
    (name : String) :
    String :=
  let type := Names.typeIdent name
  lines
    [
      "",
      writerHead ident type,
      "    ::dgen::wire::Message::marshal_into(value, bb)",
      rightBrace,
      "",
      readerHead ident type,
      "    let value = <" ++ type ++
        " as ::dgen::wire::Message>" ++
        "::unmarshal(bb.remaining())?;",
      "    let consumed = " ++
        "::dgen::wire::Message::marshal(&value)?.len();",
      "    bb.skip(consumed)?;",
      "    Ok(value)",
      rightBrace,
      ""
    ]

/- The code of a pair of routines. -/
def code
    (r : Routine) :
    String :=
  match r.body with
  | .list element transfer => listCode r.ident element transfer
  | .map key value transfer =>
      mapCode r.ident key value transfer
  | .message name => messageCode r.ident name

end Routine

------------------------------------------------------------
-- Tables
------------------------------------------------------------

/-
  The types recorded so far, each by how it is written and
  with the name of its routines, and the routines in the order
  of their code.
-/
structure RoutineTable where
  recorded : List (String × String)
  routines : List Routine
deriving DecidableEq, Repr

namespace RoutineTable

/- The table without routines. -/
def empty : RoutineTable :=
  ⟨[], []⟩

/- The recorded types, in the order recorded. -/
def signatures
    (t : RoutineTable) :
    List String :=
  t.recorded.map Prod.fst

/- The names given to routines. -/
def idents
    (t : RoutineTable) :
    List String :=
  t.recorded.map Prod.snd

/- The code of all routines. -/
def code
    (t : RoutineTable) :
    String :=
  String.join (t.routines.map Routine.code)

/- The name that a type asks for. -/
def wantedIdent : ResolvedType → String
| .scalar kind => kind.name
| .named r => Names.snakeCase r.name
| .list element => "list_" ++ wantedIdent element
| .map key value =>
    "map_" ++ key.name ++ "_" ++ wantedIdent value

/- A wanted name, then the same with numbers from two on. -/
def candidate
    (wanted : String)
    (n : Nat) :
    String :=
  if n = 0 then wanted else wanted ++ "_" ++ toString (n + 1)

/-
  The first candidate that is not taken. One more candidate
  than there are names taken is always enough.
-/
def freshIdent
    (taken : List String)
    (wanted : String) :
    String :=
  let candidates :=
    (List.range (taken.length + 1)).map (candidate wanted)
  (candidates.find? (fun c => c ∉ taken)).getD wanted

/- Give a type its name, behind the types recorded before. -/
def record
    (signature ident : String)
    (t : RoutineTable) :
    RoutineTable :=
  { t with recorded := t.recorded ++ [(signature, ident)] }

/- Add routines behind those there are. -/
def add
    (rs : List Routine)
    (t : RoutineTable) :
    RoutineTable :=
  { t with routines := t.routines ++ rs }

/-
  The name of the routines of a type. A new type is recorded
  first and its routines are made after, so that they may call
  each other.
-/
def ensureWith
    (type : ResolvedType)
    (make : String → StateM RoutineTable (List Routine)) :
    StateM RoutineTable String := do
  let t ← get
  match t.recorded.lookup (ResolvedType.signature type) with
  | some ident => return ident
  | none => do
      let ident := freshIdent t.idents (wantedIdent type)
      modify (record (ResolvedType.signature type) ident)
      let rs ← make ident
      modify (add rs)
      return ident

/-
  How a value of a type is transferred, given how the name of
  its routines is found if it needs any.
-/
def transferWith
    (ensureOne : StateM RoutineTable String) :
    ResolvedType → StateM RoutineTable Transfer
| .scalar kind => return .scalar kind
| .named (.enum name) => return .enum name
| _ => return .routine (← ensureOne)

/- The name of the routines of a type, made on first use. -/
def ensure : ResolvedType → StateM RoutineTable String
| .list element =>
    ensureWith (.list element) fun ident => do
      let transfer ← transferWith (ensure element) element
      return [⟨ident, .list element transfer⟩]
| .map key value =>
    ensureWith (.map key value) fun ident => do
      let transfer ← transferWith (ensure value) value
      return [⟨ident, .map key value transfer⟩]
| .named (.message name) =>
    ensureWith (.named (.message name)) fun ident =>
      return [⟨ident, .message name⟩]
| type => ensureWith type fun _ => return []

/- How a value of a type is transferred. -/
def transferOf
    (type : ResolvedType) :
    StateM RoutineTable Transfer :=
  transferWith (ensure type) type

end RoutineTable

end Emit

end TagWire
