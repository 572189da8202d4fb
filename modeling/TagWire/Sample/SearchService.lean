import TagWire.Rpc.Service
import TagWire.Sample.Search

/-
  This file defines the search service: what a service has to
  offer, how it is bound to a router, and one service that
  answers every request with one hit for each tag.

  Key definitions include:
    * `Sample.SearchService`
    * `Sample.SearchService.register`
    * `Sample.answer`
    * `Sample.engine`
-/

namespace TagWire

namespace Sample

------------------------------------------------------------
-- Services
------------------------------------------------------------

/- What a search service offers. -/
structure SearchService (m : Type → Type) where
  search : SearchRequest → ExceptT RpcError m SearchResponse
  record : Ping → ExceptT RpcError m Unit

namespace SearchService

variable {m : Type → Type} [Monad m]

/- The handler of searches. -/
def searchHandler
    (s : SearchService m) :
    Handler m :=
  Handler.ofFunction s.search

/- The handler of pings. -/
def recordHandler
    (s : SearchService m) :
    Handler m :=
  Handler.ofAction s.record

/- Bind the methods of a service under a service name. -/
def register
    (s : SearchService m)
    (r : Router m)
    (name : String) :
    Router m :=
  (r.register (methodName name "Search") s.searchHandler)
    |>.register (methodName name "Record") s.recordHandler

end SearchService

------------------------------------------------------------
-- An Engine
------------------------------------------------------------

/- The hit for a tag. -/
def hitOf
    (query tag : String) :
    Hit where
  url := "https://example.com/" ++ tag ++ "?q=" ++ query
  title := tag
  score := FloatKind.float64.encode false 1 0
  snippets := ["all about " ++ tag]

/- The answer to a request. -/
def answer
    (request : SearchRequest) :
    SearchResponse where
  hits := request.tags.map (hitOf request.query)
  facets := Table.empty
  total := BitVec.ofNat _ request.tags.length
  echo := some request

/- The query that the engine refuses. -/
def refusedQuery : String :=
  "boom"

/- The numbers that pings carry. -/
abbrev Nonce : Type :=
  NumKind.Word (.int .int64)

/-
  The engine answers all requests but those with the refused
  query, and keeps the numbers of the pings in the order in
  which they come.
-/
def engine : SearchService (StateM (List Nonce)) where
  search request :=
    if request.query = refusedQuery then
      throw (.service "index unavailable")
    else
      return answer request
  record ping :=
    modify (fun nonces => nonces ++ [ping.nonce])

end Sample

end TagWire
