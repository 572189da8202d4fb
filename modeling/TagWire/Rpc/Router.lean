import TagWire.Text.Shown
import TagWire.Typed.Table
import TagWire.Wire.Error

/-
  This file defines the calling of methods by their names. A
  router binds each name to a handler, which takes an encoded
  request to an encoded reply.

  Key definitions include:
    * `RpcError`
    * `Handler`
    * `Router`
    * `Router.register`
    * `Router.methods`
    * `Router.call`
-/

namespace TagWire

open Text

------------------------------------------------------------
-- Errors
------------------------------------------------------------

/- Why a call has no reply. -/
inductive RpcError where
/- The request cannot be read or the reply not be written. -/
| wire (e : WireError)
/- The service refuses the request. -/
| service (reason : String)
/- No handler is bound to the method. -/
| unknownMethod (method : String)
deriving DecidableEq, Repr

namespace RpcError

/- The description of an error. -/
def message : RpcError → String
| wire e => e.message
| service reason => s!"service error: {reason}"
| unknownMethod method =>
    s!"no handler registered for {method}"

end RpcError

------------------------------------------------------------
-- Handlers
------------------------------------------------------------

/-
  What answers the calls of a method. It may act in the monad
  `m` and may fail.
-/
abbrev Handler (m : Type → Type) : Type :=
  List UInt8 → ExceptT RpcError m (List UInt8)

------------------------------------------------------------
-- Routers
------------------------------------------------------------

/- The handlers bound to the names of methods. -/
structure Router (m : Type → Type) where
  handlers : Table String (Handler m)

namespace Router

variable {m : Type → Type}

/- The router without handlers. -/
def empty : Router m :=
  ⟨Table.empty⟩

/- Bind a handler, in place of one bound before. -/
def register
    (r : Router m)
    (method : String)
    (handler : Handler m) :
    Router m :=
  ⟨r.handlers.insert method handler⟩

/- The handler bound to a method. -/
def handler?
    (r : Router m)
    (method : String) :
    Option (Handler m) :=
  r.handlers.get? method

/- Whether a handler is bound to a method. -/
def contains
    (r : Router m)
    (method : String) :
    Bool :=
  (r.handler? method).isSome

/- The methods with a handler, in ascending order. -/
def methods
    (r : Router m) :
    List String :=
  r.handlers.keys

/- Pass a request to the handler of a method. -/
def call
    [Monad m]
    (r : Router m)
    (method : String) :
    Handler m :=
  match r.handler? method with
  | some handler => handler
  | none => fun _ => throw (.unknownMethod method)

/- Names as a diagnostic shows a list of them. -/
def inspectNames
    (names : List String) :
    String :=
  bracketed "[" "]" (names.map Text.inspect)

/- A router as a diagnostic shows it. -/
def inspect
    (r : Router m) :
    String :=
  shownParts "Router" [("methods", inspectNames r.methods)]

end Router

end TagWire
