import TagWire.Sample.SearchService

/-
  This file defines a demonstration: one search and one ping
  through a router, and what is told of them.

  Key definitions include:
    * `Sample.Demo.request`
    * `Sample.Demo.output`
-/

namespace TagWire

open Text

namespace Sample

namespace Demo

/- The search of the demonstration. -/
def request : SearchRequest where
  query := "rust"
  pageNumber := 1
  resultsPerPage := 0
  corpus := .web
  tags := ["docs", "blog"]

/- The router of the demonstration. -/
def router : Router (StateM (List Nonce)) :=
  engine.register Router.empty "search"

/- The line about the methods of the router. -/
def methodsLine : String :=
  s!"Registered methods: {Router.inspectNames router.methods}"

/- The line about an encoded request. -/
def requestLine
    (data : List UInt8) :
    String :=
  let bytes :=
    bracketed "[" "]" (data.map fun b => toString b.toNat)
  s!"Encoded request: {data.length} bytes {bytes}"

/- The line about a hit. -/
def hitLine
    (hit : Hit) :
    String :=
  s!"{hit.url} ({hit.title})"

/- Make the two calls, and tell of the first. -/
def run :
    ExceptT RpcError (StateM (List Nonce)) (List String) := do
  let data ← Handler.wire (WireMessage.encode request)
  let reply ← router.call (methodName "search" "Search") data
  let response : SearchResponse ←
    Handler.wire (WireMessage.decode reply)
  let ping ← Handler.wire (WireMessage.encode (Ping.mk 7))
  let _ ← router.call (methodName "search" "Record") ping
  return [methodsLine, requestLine data] ++
    response.hits.map hitLine

/- What the demonstration tells. -/
def output : Except RpcError String :=
  (run.run []).1.map fun lines =>
    String.join (lines.map (· ++ "\n"))

end Demo

end Sample

end TagWire
