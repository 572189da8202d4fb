import Mathlib
import TagWire.Proofs.Generated.Datum

/-
  What generated code does. An expression has a value, a
  statement acts on a frame, and both may fail with an error,
  which the function that they stand in passes on. There is no
  outcome where the code would not be accepted, and none where
  it would not come to an end.

  Main declarations:
    * `Generated.JsonLibrary`
    * `Generated.Frame`
    * `Generated.Run`
    * `Generated.Program.eval`
    * `Generated.Program.exec`
    * `Generated.Program.marshal`
    * `Generated.Program.unmarshal`
-/

------------------------------------------------------------
-- Frames
------------------------------------------------------------

namespace TagWire

namespace Generated

/-
  The library for JSON, as far as generated code asks for it:
  the bytes of data, and the data of a type from bytes, by
  what a program declares.
-/
structure JsonLibrary where
  write? : Program → Datum → Option (List UInt8)
  read? : Program → CodeType → List UInt8 → Option Datum

namespace JsonLibrary

/- The library that there is where no code asks for one. -/
def missing : JsonLibrary where
  write? _ _ := none
  read? _ _ _ := none

/- The bytes of data. -/
def toBytes
    (lib : JsonLibrary)
    (p : Program)
    (d : Datum) :
    Except WireError Datum :=
  match lib.write? p d with
  | some data => .ok (.bytes data)
  | none => .error .malformedJson

/- The data of a type that some bytes are. -/
def ofBytes
    (lib : JsonLibrary)
    (p : Program)
    (type : CodeType)
    (data : List UInt8) :
    Except WireError Datum :=
  match lib.read? p type data with
  | some d => .ok d
  | none => .error .malformedJson

end JsonLibrary

/- What a name stands for, and whether this may change. -/
structure Local where
  isMutable : Bool
  name : String
  value : Datum

/-
  Where a function is: the names that it knows, the last one
  first, the type that it belongs to, and the two buffers.
-/
structure Frame where
  locals : List Local
  self : String
  input : Cursor
  output : List UInt8

namespace Frame

/- The frame of a function of a type that is given a value. -/
def enter
    (self parameter : String)
    (value : Datum) :
    Frame where
  locals := [⟨false, parameter, value⟩]
  self := self
  input := .start []
  output := []

/- What a name stands for. -/
def local?
    (f : Frame)
    (name : String) :
    Option Datum :=
  (f.locals.find? (·.name == name)).map Local.value

/- A new name, in front of the others. -/
def bind
    (f : Frame)
    (isMutable : Bool)
    (name : String)
    (value : Datum) :
    Frame :=
  { f with locals := ⟨isMutable, name, value⟩ :: f.locals }

/- New names for the values of a round. -/
def bindAll
    (f : Frame)
    (names : List String)
    (values : List Datum) :
    Frame :=
  (names.zip values).foldl
    (fun f (name, d) => f.bind false name d) f

/- The names that were known before, so many of them. -/
def keep
    (f : Frame)
    (count : Nat) :
    Frame :=
  { f with locals := f.locals.drop (f.locals.length - count) }

end Frame

/- Another value for a name, if it may change. -/
def assignLocal?
    (name : String)
    (value : Datum) :
    List Local → Option (List Local)
| [] => none
| l :: rest =>
    if l.name = name then
      if l.isMutable then
        some ({ l with value := value } :: rest)
      else
        none
    else
      (assignLocal? name value rest).map (l :: ·)

/- What code does to a frame. -/
abbrev Run : Type → Type :=
  StateT Frame (ExceptT WireError Option)

namespace Run

variable {α : Type}

/- What there may be or not. -/
def lift
    (a? : Option α) :
    Run α :=
  fun f => a?.map fun a => .ok (a, f)

/- Take over a result. -/
def ofExcept
    (r : Except WireError α) :
    Run α :=
  fun f => some (r.map fun a => (a, f))

/- Read from the input. -/
def read
    (r : Reader WireError α) :
    Run α :=
  fun f =>
    match r f.input with
    | (.ok a, c) => some (.ok (a, { f with input := c }))
    | (.error e, _) => some (.error e)

/- Write an item to the output. -/
def write
    (item : Item) :
    Run Unit :=
  fun f =>
    some ((item.append f.output).map fun written =>
      ((), { f with output := written }))

/- Give a name another value. -/
def assign
    (name : String)
    (value : Datum) :
    Run Unit :=
  fun f =>
    (assignLocal? name value f.locals).map fun locals =>
      .ok ((), { f with locals := locals })

end Run

end Generated

end TagWire

------------------------------------------------------------
-- Runs
------------------------------------------------------------

namespace TagWire

namespace Generated

namespace Program

mutual

/- The value of an expression. -/
def eval
    (lib : JsonLibrary)
    (p : Program)
    (e : Expr) :
    Run Datum :=
  match e with
  | .var name => do
      let f ← get
      Run.lift (f.local? name)
  | .field e ident => do
      let d ← p |>.eval lib e
      Run.lift (d.field? ident)
  | .deref e => p |>.eval lib e
  | .borrow e => p |>.eval lib e
  | .paren e => p |>.eval lib e
  | .someOf e => do
      let d ← p |>.eval lib e
      return .present d
  | .box e => p |>.eval lib e
  | .owned e => do
      let d ← p |>.eval lib e
      match d with
      | .string text => return .string text
      | _ => Run.lift none
  | .isEmpty e => do
      let d ← p |>.eval lib e
      Run.lift (d.isEmpty?.map .bool)
  | .negate e => do
      let d ← p |>.eval lib e
      Run.lift (d.negate?.map .bool)
  | .isNotZero e => do
      let d ← p |>.eval lib e
      Run.lift (d.isNotZero?.map .bool)
  | .isNotZeroPoint e => do
      let d ← p |>.eval lib e
      Run.lift (d.isNotZeroPoint?.map .bool)
  | .isTag e seq => do
      let d ← p |>.eval lib e
      Run.lift ((d.isTag? seq).map .bool)
  | .asUint32 e => do
      let d ← p |>.eval lib e
      Run.lift (p.number? d)
  | .tryFrom type e => do
      let d ← p |>.eval lib e
      let r ← Run.lift (p.variant? type d)
      Run.ofExcept r
  | .unit => return .unit
  | .selfDefault => do
      let f ← get
      Run.lift (p.defaultStruct? f.self)
  | .listWithCapacity e => do
      let d ← p |>.eval lib e
      match d with
      | .size _ => return .list []
      | _ => Run.lift none
  | .emptyMap => return .map []
  | .len e => do
      let d ← p |>.eval lib e
      Run.lift (d.len?.map .size)
  | .min e e' => do
      let d ← p |>.eval lib e
      let d' ← p |>.eval lib e'
      Run.lift ((d.min? d').map .size)
  | .remaining => do
      let f ← get
      return .bytes f.input.remaining
  | .readTag => do
      let seq? ← Run.read Reader.tag
      return .tag seq?
  | .readNumber kind => do
      let word ← Run.read (Reader.number kind)
      return .number kind word
  | .readString => do
      let text ← Run.read Reader.string
      return .string text
  | .readLen => do
      let n ← Run.read Reader.length
      return .size n
  | .readRoutine ident => do
      let r ← Run.lift (p.routine? ident)
      let caller ← get
      set { Frame.enter "" "" .unit with input := caller.input }
      let d ← p |>.runBody lib r.reader
      let callee ← get
      set { caller with input := callee.input }
      return d
  | .unmarshal type e => do
      let d ← p |>.eval lib e
      let caller ← get
      let value ← p |>.unmarshalInto lib type d
      set caller
      return value
  | .marshal e => do
      let d ← p |>.eval lib e
      let caller ← get
      set { caller with output := [] }
      let _ ← p |>.marshalInto lib d
      let callee ← get
      set caller
      return .bytes callee.output
  | .toJson e => do
      let d ← p |>.eval lib e
      match d with
      | .struct _ _ => Run.ofExcept (lib.toBytes p d)
      | _ => Run.lift none
  | .fromJson e => do
      let d ← p |>.eval lib e
      let f ← get
      match d with
      | .bytes data =>
          Run.ofExcept (lib.ofBytes p (.named f.self) data)
      | _ => Run.lift none
partial_fixpoint

/- Call the function of a type that reads a message. -/
def unmarshalInto
    (lib : JsonLibrary)
    (p : Program)
    (type : String)
    (d : Datum) :
    Run Datum := do
  let m ← Run.lift (p.message? type)
  set (Frame.enter type m.bytes d)
  p |>.runBody lib m.unmarshal
partial_fixpoint

/- Call the function of a message that writes it. -/
def marshalInto
    (lib : JsonLibrary)
    (p : Program)
    (d : Datum) :
    Run Datum := do
  match d with
  | .struct type _ => do
      let m ← Run.lift (p.message? type)
      let caller ← get
      set { Frame.enter type "self" d with output := caller.output }
      let value ← p |>.runBody lib m.marshalInto
      let callee ← get
      set { caller with output := callee.output }
      return value
  | _ => Run.lift none
partial_fixpoint

/- The value of a function. -/
def runBody
    (lib : JsonLibrary)
    (p : Program)
    (b : Body) :
    Run Datum := do
  p |>.execAll lib b.statements
  match b.ending with
  | .ok e => p |>.eval lib e
  | .marshalInto e => do
      let d ← p |>.eval lib e
      p |>.marshalInto lib d
partial_fixpoint

/- Do some statements, with names of their own. -/
def execBlock
    (lib : JsonLibrary)
    (p : Program)
    (body : List Statement) :
    Run Unit := do
  let f ← get
  p |>.execAll lib body
  modify fun f' => f'.keep f.locals.length
partial_fixpoint

/- Do some statements for each of some rounds. -/
def execRounds
    (lib : JsonLibrary)
    (p : Program)
    (names : List String)
    (body : List Statement)
    (rounds : List (List Datum)) :
    Run Unit :=
  match rounds with
  | [] => return ()
  | values :: rest => do
      let f ← get
      set (f.bindAll names values)
      p |>.execAll lib body
      modify fun f' => f'.keep f.locals.length
      p |>.execRounds lib names body rest
partial_fixpoint

/- Do some statements. -/
def execAll
    (lib : JsonLibrary)
    (p : Program)
    (body : List Statement) :
    Run Unit :=
  match body with
  | [] => return ()
  | s :: rest => do
      p |>.exec lib s
      p |>.execAll lib rest
partial_fixpoint

/- Do a statement. -/
def exec
    (lib : JsonLibrary)
    (p : Program)
    (s : Statement) :
    Run Unit :=
  match s with
  | .bind isMutable name e => do
      let d ← p |>.eval lib e
      modify fun f => f.bind isMutable name d
  | .openBuffer e => do
      let d ← p |>.eval lib e
      match d with
      | .bytes data => modify fun f => { f with input := .start data }
      | _ => Run.lift none
  | .assign name e => do
      let d ← p |>.eval lib e
      Run.assign name d
  | .assignField name ident e => do
      let d ← p |>.eval lib e
      let f ← get
      let old ← Run.lift (f.local? name)
      let new ← Run.lift (old.setField? ident d)
      Run.assign name new
  | .push name e => do
      let d ← p |>.eval lib e
      let f ← get
      let old ← Run.lift (f.local? name)
      let new ← Run.lift (old.push? d)
      Run.assign name new
  | .insert name key value => do
      let k ← p |>.eval lib key
      let d ← p |>.eval lib value
      let f ← get
      let old ← Run.lift (f.local? name)
      let new ← Run.lift (old.insert? k d)
      Run.assign name new
  | .writeTag seq => Run.write (.tag seq)
  | .writeNumber kind e => do
      let d ← p |>.eval lib e
      match d with
      | .number kind' word =>
          if kind' = kind then
            Run.write (.number kind' word)
          else
            Run.lift none
      | _ => Run.lift none
  | .writeString e => do
      let d ← p |>.eval lib e
      match d with
      | .string text => Run.write (.string text)
      | _ => Run.lift none
  | .writeLen e => do
      let d ← p |>.eval lib e
      match d with
      | .size n => Run.write (.length n)
      | _ => Run.lift none
  | .writeBytes e => do
      let d ← p |>.eval lib e
      match d with
      | .bytes data => Run.write (.bytes data)
      | _ => Run.lift none
  | .writeRoutine ident e => do
      let d ← p |>.eval lib e
      let r ← Run.lift (p.routine? ident)
      let caller ← get
      set { Frame.enter "" "value" d with output := caller.output }
      let _ ← p |>.runBody lib r.writer
      let callee ← get
      set { caller with output := callee.output }
  | .skip e => do
      let d ← p |>.eval lib e
      match d with
      | .size n => Run.read (Reader.skip n)
      | _ => Run.lift none
  | .branch (.holds e) body otherwise => do
      let d ← p |>.eval lib e
      match d with
      | .bool true => p |>.execBlock lib body
      | .bool false => p |>.execBlock lib otherwise
      | _ => Run.lift none
  | .branch (.binds name e) body otherwise => do
      let d ← p |>.eval lib e
      match d with
      | .present d' => p |>.execRounds lib [name] body [[d']]
      | .absent => p |>.execBlock lib otherwise
      | _ => Run.lift none
  | .each names e body => do
      let d ← p |>.eval lib e
      let rounds ← Run.lift (d.rounds? names.length)
      p |>.execRounds lib names body rounds
  | .times e body => do
      let d ← p |>.eval lib e
      match d with
      | .size n => p |>.execRounds lib [] body (List.replicate n [])
      | _ => Run.lift none
  | .fail fault field => Run.ofExcept (.error (fault.error field))
  | .gap => return ()
partial_fixpoint

end

end Program

export Program (eval exec execAll execBlock execRounds runBody
  marshalInto unmarshalInto)

end Generated

end TagWire

------------------------------------------------------------
-- Calls from Outside
------------------------------------------------------------

namespace TagWire

namespace Generated

/- What an act comes to outside of all functions. -/
def Run.outcome
    {α : Type}
    (act : Run α) :
    Option (Except WireError (α × Frame)) :=
  act (Frame.enter "" "" .unit)

namespace Program

/- The data of a type that some bytes are read as. -/
def unmarshal
    (p : Program)
    (lib : JsonLibrary)
    (type : String)
    (data : List UInt8) :
    Option (Except WireError Datum) :=
  (unmarshalInto lib p type (.bytes data)).outcome.map
    (Except.map Prod.fst)

/- The bytes that some data is written as. -/
def marshal
    (p : Program)
    (lib : JsonLibrary)
    (d : Datum) :
    Option (Except WireError (List UInt8)) :=
  (marshalInto lib p d).outcome.map
    (Except.map fun x => x.2.output)

end Program

end Generated

end TagWire

------------------------------------------------------------
-- Steps
------------------------------------------------------------

namespace TagWire

namespace Generated

namespace Run

variable {α β : Type}
variable {f g : Frame}

/- What an act comes to, and then what follows. -/
def andThen
    (outcome : Option (Except WireError (α × Frame)))
    (next : α → Run β) :
    Option (Except WireError (β × Frame)) :=
  match outcome with
  | some (.ok (a, f)) => next a f
  | some (.error e) => some (.error e)
  | none => none

@[simp]
theorem bind_apply
    (x : Run α)
    (next : α → Run β)
    (f : Frame) :
    (x >>= next) f = andThen (x f) next := by
  show (Option.bind (x f) _) = _
  rcases x f with _ | ⟨e | ⟨a, g⟩⟩ <;> rfl

@[simp]
theorem andThen_ok
    (a : α)
    (f : Frame)
    (next : α → Run β) :
    andThen (some (.ok (a, f))) next = next a f := by
  rfl

@[simp]
theorem andThen_error
    (e : WireError)
    (next : α → Run β) :
    andThen (some (.error e)) next = some (.error e) := by
  rfl

theorem andThen_andThen
    {γ : Type}
    (outcome : Option (Except WireError (α × Frame)))
    (next : α → Run β)
    (last : β → Run γ) :
    andThen (andThen outcome next) last =
      andThen outcome fun a f => andThen (next a f) last := by
  rcases outcome with _ | ⟨e | ⟨a, f⟩⟩ <;> rfl

@[simp]
theorem pure_apply
    (a : α)
    (f : Frame) :
    (pure a : Run α) f = some (.ok (a, f)) := by
  rfl

@[simp]
theorem get_apply
    (f : Frame) :
    (get : Run Frame) f = some (.ok (f, f)) := by
  rfl

@[simp]
theorem set_apply
    (f g : Frame) :
    (set g : Run PUnit) f = some (.ok ((), g)) := by
  rfl

@[simp]
theorem modify_apply
    (change : Frame → Frame)
    (f : Frame) :
    (modify change : Run PUnit) f =
      some (.ok ((), change f)) := by
  rfl

@[simp]
theorem lift_some
    (a : α)
    (f : Frame) :
    lift (some a) f = some (.ok (a, f)) := by
  rfl

@[simp]
theorem ofExcept_error
    (e : WireError)
    (f : Frame) :
    (ofExcept (.error e) : Run α) f = some (.error e) := by
  rfl

end Run

------------------------------------------------------------
-- Names and Sequences
------------------------------------------------------------

variable {lib : JsonLibrary}
variable {p : Program}
variable {f : Frame}

attribute [local simp] eval exec execAll execBlock execRounds
  runBody unmarshalInto marshalInto

theorem eval_var
    {name : String}
    {d : Datum}
    (h : f.local? name = some d) :
    eval lib p (.var name) f = some (.ok (d, f)) := by
  simp [h]

/- What a name stands for in the function that it is from. -/
theorem local?_enter
    (self name : String)
    (d : Datum) :
    (Frame.enter self name d).local? name = some d := by
  simp [Frame.local?, Frame.enter]

theorem eval_var_enter
    (self name : String)
    (d : Datum) :
    eval lib p (.var name) (Frame.enter self name d) =
      some (.ok (d, Frame.enter self name d)) :=
  eval_var (local?_enter self name d)

@[simp]
theorem execAll_nil
    (f : Frame) :
    execAll lib p [] f = some (.ok ((), f)) := by
  simp

theorem execAll_cons
    (s : Statement)
    (rest : List Statement)
    (f : Frame) :
    execAll lib p (s :: rest) f =
      Run.andThen (exec lib p s f)
        fun _ => execAll lib p rest := by
  simp

theorem execAll_append
    (front back : List Statement)
    (f : Frame) :
    execAll lib p (front ++ back) f =
      Run.andThen (execAll lib p front f)
        fun _ => execAll lib p back := by
  induction front generalizing f with
  | nil => rw [List.nil_append, execAll_nil, Run.andThen_ok]
  | cons s rest ih =>
      rw [List.cons_append, execAll_cons, execAll_cons,
        Run.andThen_andThen]
      refine congrArg (Run.andThen _) ?_
      funext a g
      exact ih g

@[simp]
theorem execAll_singleton
    (s : Statement)
    (f : Frame) :
    execAll lib p [s] f = exec lib p s f := by
  rw [execAll_cons]
  rcases exec lib p s f with _ | ⟨e | ⟨a, g⟩⟩
  · rfl
  · rfl
  · rw [Run.andThen_ok, execAll_nil]

end Generated

end TagWire
