import TagWire.Typed.Format

/-
  This file defines the messages of a search service, in the
  binary encoding.

  Key definitions include:
    * `Sample.Corpus`
    * `Sample.SearchRequest`
    * `Sample.Hit`
    * `Sample.SearchResponse`
    * `Sample.Ping`
-/

namespace TagWire

namespace Sample

------------------------------------------------------------
-- Requests
------------------------------------------------------------

/- The collections that can be searched. -/
inductive Corpus where
| universal
| web
| images
| news
deriving DecidableEq, Inhabited, Repr

namespace Corpus

/- The name of a collection. -/
def name : Corpus → String
| universal => "Universal"
| web => "Web"
| images => "Images"
| news => "News"

/- Collections are carried by their number. -/
def codec : Codec Corpus :=
  .enum "Corpus" universal [web, images, news] name

end Corpus

/- What is searched for, and how much of it is wanted. -/
structure SearchRequest where
  query : String
  pageNumber : NumKind.Word (.int .int32)
  resultsPerPage : NumKind.Word (.int .uint16)
  corpus : Corpus
  tags : List String
deriving DecidableEq, Inhabited, Repr

namespace SearchRequest

/- The format of a request. -/
def format : Format SearchRequest SearchRequest :=
  (Format.start mk)
    |>.required 1 "query" .string query
    |>.optional 2 "pageNumber" (.number (.int .int32)) pageNumber
    |>.optional 3 "resultsPerPage" (.number (.int .uint16))
      resultsPerPage
    |>.optional 4 "corpus" Corpus.codec corpus
    |>.optional 5 "tags" (.list .string) tags

instance : WireMessage SearchRequest :=
  format.wireMessage "SearchRequest"

end SearchRequest

------------------------------------------------------------
-- Responses
------------------------------------------------------------

/- One thing that was found. -/
structure Hit where
  url : String
  title : String
  score : NumKind.Word (.float .float64)
  snippets : List String
deriving DecidableEq, Inhabited, Repr

namespace Hit

/- The format of a hit. -/
def format : Format Hit Hit :=
  (Format.start mk)
    |>.required 1 "url" .string url
    |>.optional 2 "title" .string title
    |>.optional 3 "score" (.number (.float .float64)) score
    |>.optional 4 "snippets" (.list .string) snippets

instance : WireMessage Hit :=
  format.wireMessage "Hit"

end Hit

/- All that was found, with the request it answers. -/
structure SearchResponse where
  hits : List Hit
  facets : Table String (List (NumKind.Word (.int .int32)))
  total : NumKind.Word (.int .uint64)
  echo : Option SearchRequest
deriving DecidableEq, Inhabited, Repr

namespace SearchResponse

/- The format of a response. -/
def format : Format SearchResponse SearchResponse :=
  (Format.start mk)
    |>.optional 1 "hits" (.list (.message Hit)) hits
    |>.optional 2 "facets"
      (.map .string (.list (.number (.int .int32)))) facets
    |>.optional 3 "total" (.number (.int .uint64)) total
    |>.optional 4 "echo" (.option (.message SearchRequest)) echo

instance : WireMessage SearchResponse :=
  format.wireMessage "SearchResponse"

end SearchResponse

------------------------------------------------------------
-- Signs of Life
------------------------------------------------------------

/- A message that needs no answer. -/
structure Ping where
  nonce : NumKind.Word (.int .int64)
deriving DecidableEq, Inhabited, Repr

namespace Ping

/- The format of a ping. -/
def format : Format Ping Ping :=
  (Format.start mk)
    |>.optional 1 "nonce" (.number (.int .int64)) nonce

instance : WireMessage Ping :=
  format.wireMessage "Ping"

end Ping

end Sample

end TagWire
