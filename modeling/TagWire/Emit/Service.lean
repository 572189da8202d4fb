import TagWire.Emit.Phrase

/-
  This file defines the generated code of services. A service
  has its methods over messages, its raw form over bytes, an
  adapter that makes the second from the first, and a function
  that registers every method by its full name.

  Key definitions include:
    * `Emit.header`
    * `Emit.serviceCode`
    * `Emit.servicesCode`
-/

namespace TagWire

namespace Emit

open Text

/- The line that opens every generated file. -/
def header
    (sourceName : String) :
    String :=
  "// Code generated by dgen from " ++ sourceName ++
    ". DO NOT EDIT.\n"

/- The type of a result of a service. -/
def serviceResult
    (value : String) :
    String :=
  resultOf value "::dgen::rpc::RpcError"

/- The type of encoded messages. -/
def byteVector : String :=
  listOf "u8"

/- The code of the methods over messages. -/
def typedCode
    (s : Service)
    (name : String) :
    String :=
  lines
    ([opening ("pub trait " ++ name)] ++
      s.methods.map (fun m =>
        "    fn " ++ Names.methodIdent m.name ++
          "(&self, req: &" ++ Names.typeIdent m.request ++
          ") -> " ++
          serviceResult
            ((m.response.map Names.typeIdent).getD "()") ++
          ";") ++
      [rightBrace ++ "\n"])

/- The first part of a method over bytes. -/
def rawHead
    (m : Method) :
    String :=
  "    fn " ++ Names.methodHandlerIdent m.name ++
    "(&self, req: &[u8]) -> " ++ serviceResult byteVector

/- The code of the methods over bytes. -/
def rawCode
    (s : Service)
    (name : String) :
    String :=
  lines
    ([opening ("pub trait " ++ name ++ "Handler")] ++
      s.methods.map (fun m => rawHead m ++ ";") ++
      [rightBrace ++ "\n"])

/- The code of one method of an adapter. -/
def adaptedMethodCode
    (m : Method) :
    String :=
  let call := "self.service." ++ Names.methodIdent m.name
  let reply :=
    match m.response with
    | some _ =>
        [
          "        let reply = " ++ call ++ "(&args)?;",
          "        Ok(::dgen::wire::Message" ++
            "::marshal(&reply)?)"
        ]
    | none =>
        [
          "        " ++ call ++ "(&args)?;",
          "        Ok(::std::vec::Vec::new())"
        ]
  lines
    ([
      opening (rawHead m),
      "        let args = <" ++ Names.typeIdent m.request ++
        " as ::dgen::wire::Message>::unmarshal(req)?;"
    ] ++ reply ++ [closing "    "])

/- The code of the adapter. -/
def adapterCode
    (s : Service)
    (name : String) :
    String :=
  let serving :=
    opening
      ("impl<T: " ++ name ++ "> " ++ name ++ "Handler for " ++
        name ++ "Adapter<T>")
  let body :=
    if s.methods.isEmpty then
      [serving ++ rightBrace ++ "\n"]
    else
      [
        serving,
        "\n\n".intercalate (s.methods.map adaptedMethodCode),
        rightBrace ++ "\n"
      ]
  lines
    ([
      "/// Serves a \x60" ++ name ++
        "\x60 implementation through \x60" ++ name ++
        "Handler\x60.",
      opening ("pub struct " ++ name ++ "Adapter<T>"),
      "    service: T,",
      rightBrace ++ "\n",
      opening ("impl<T> " ++ name ++ "Adapter<T>"),
      opening "    pub fn new(service: T) -> Self",
      "        Self " ++ inBraces "service",
      closing "    " ++ "\n",
      opening "    pub fn into_inner(self) -> T",
      "        self.service",
      closing "    ",
      rightBrace ++ "\n"
    ] ++ body)

/- Where a text is filled in. -/
def hole : String :=
  leftBrace ++ rightBrace

/- The lines that register one method. -/
def registerLines
    (m : Method) :
    List String :=
  [
    "    " ++ leftBrace,
    "        let adapter = ::std::sync::Arc::clone(&adapter);",
    "        server.register(",
    "            format!(\"" ++ hole ++ "." ++ hole ++
      "\", service_name, " ++ inspect m.name ++ "),",
    "            ::std::boxed::Box::new(move |req: &[u8]| " ++
      "adapter." ++ Names.methodHandlerIdent m.name ++ "(req)),",
    "        );",
    closing "    "
  ]

/- The code of the function that registers a service. -/
def registerCode
    (s : Service)
    (name : String) :
    String :=
  let body :=
    if s.methods.isEmpty then
      ["    let _ = (server, service_name, service);"]
    else
      ["    let adapter = ::std::sync::Arc::new(" ++ name ++
        "Adapter::new(service));"] ++
        s.methods.flatMap registerLines
  lines
    ([
      "/// Registers every \x60" ++ name ++
        "\x60 method as \x60\"<service_name>.<Method>\"\x60.",
      "pub fn " ++ Names.registerIdent s.name ++
        "<R, T>(server: &mut R, service_name: &str, " ++
        "service: T)",
      "where",
      "    R: ::dgen::rpc::Registrar + ?Sized,",
      "    T: " ++ name ++ " + Send + Sync + 'static,",
      leftBrace
    ] ++ body ++ [rightBrace ++ "\n"])

/- The parts of the code of a service. -/
def serviceCode
    (s : Service) :
    List String :=
  let name := Names.serviceIdent s.name
  [
    typedCode s name, rawCode s name, adapterCode s name,
    registerCode s name
  ]

/-
  The code of some services. Without any there is still the
  opening line.
-/
def servicesCode
    (sourceName : String)
    (services : List Service) :
    String :=
  lines (header sourceName :: services.flatMap serviceCode)

end Emit

end TagWire
