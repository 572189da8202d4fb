import TagWire.Rpc.Service
import TagWire.Sample.Contacts

/-
  This file defines the directory service and one directory
  that knows a contact of every name.

  Key definitions include:
    * `Sample.Directory`
    * `Sample.Directory.register`
    * `Sample.emptyDirectory`
-/

namespace TagWire

namespace Sample

/- What a directory offers. -/
structure Directory (m : Type → Type) where
  find : Lookup → ExceptT RpcError m Contact

namespace Directory

variable {m : Type → Type} [Monad m]

/- The handler of lookups. -/
def findHandler
    (d : Directory m) :
    Handler m :=
  Handler.ofFunction d.find

/- Bind the methods of a directory under a service name. -/
def register
    (d : Directory m)
    (r : Router m)
    (name : String) :
    Router m :=
  r.register (methodName name "Find") d.findHandler

end Directory

/- The directory that knows nothing of a contact but a name. -/
def emptyDirectory
    {m : Type → Type}
    [Monad m] :
    Directory m where
  find lookup :=
    return ⟨lookup.name, .personal, Table.empty, none⟩

end Sample

end TagWire
