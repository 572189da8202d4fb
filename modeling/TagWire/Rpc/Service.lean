import TagWire.Rpc.Router
import TagWire.Typed.Format

/-
  This file defines handlers from functions on messages: the
  request is decoded first, and the reply is encoded last.

  Key definitions include:
    * `Handler.ofFunction`
    * `Handler.ofAction`
    * `methodName`
-/

namespace TagWire

/- The full name of a method: its service and its own name. -/
def methodName
    (service method : String) :
    String :=
  service ++ "." ++ method

namespace Handler

variable {m : Type → Type} [Monad m]
variable {α β : Type} [WireMessage α]

/- Take over a result of reading or writing a message. -/
def wire
    (result : Except WireError β) :
    ExceptT RpcError m β :=
  ExceptT.mk (pure (result.mapError .wire))

/- The handler of a method that replies with a message. -/
def ofFunction
    [WireMessage β]
    (f : α → ExceptT RpcError m β) :
    Handler m :=
  fun data => do
    let request ← wire (WireMessage.decode data)
    let reply ← f request
    wire (WireMessage.encode reply)

/- The handler of a method that has nothing to reply. -/
def ofAction
    (f : α → ExceptT RpcError m Unit) :
    Handler m :=
  fun data => do
    let request ← wire (WireMessage.decode data)
    f request
    return []

end Handler

end TagWire
