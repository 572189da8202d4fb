import TagWire.Compile

/-
  This file defines the schemas that declare the sample
  messages, as texts.

  Key definitions include:
    * `Sample.textOfBlocks` and `Sample.declarationLines`
    * `Sample.casesText`
    * `Sample.searchText`
    * `Sample.contactsText`

  Correctness is proven by:
    * `Sample.toList_textOfLines`
-/

namespace TagWire

namespace Sample

/- The text of some lines, each with its newline. -/
def textOfLines
    (lines : List String) :
    String :=
  String.ofList (lines.flatMap fun l => l.toList ++ ['\n'])

/- The characters of a text stand in the order of its lines. -/
theorem toList_textOfLines
    (lines : List String) :
    (textOfLines lines).toList =
      lines.flatMap fun l => l.toList ++ ['\n'] :=
  String.toList_ofList

/- The text of some blocks, with an empty line between them. -/
def textOfBlocks
    (blocks : List (List String)) :
    String :=
  textOfLines ([""].intercalate blocks)

/- The lines of a declaration, with its parts indented. -/
def declarationLines
    (head : String)
    (parts : List String) :
    List String :=
  [head ++ " " ++ Text.leftBrace] ++
    parts.map ("    " ++ ·) ++ [Text.rightBrace]

/- The schema of small messages that reach corners. -/
def casesText : String :=
  textOfBlocks
    [
      ["# Small messages exercising the corners of the wire format."],
      declarationLines "message Person"
        [
          "seq=1 string name;",
          "optional seq=2 int32 age;"
        ],
      "# Tags 2 and 5 with nothing in between." ::
        declarationLines "message Window"
          [
            "optional seq=2 int32 first;",
            "optional seq=5 int32 second;"
          ],
      declarationLines "message StrictWindow"
        [
          "seq=2 int32 first;",
          "seq=5 int32 second;"
        ],
      declarationLines "message Envelope"
        [
          "seq=1 Header header;",
          "seq=2 uint32 checksum;"
        ],
      declarationLines "message Header"
        [
          "seq=1 string kind;",
          "optional seq=2 list[uint8] flags;"
        ],
      ["message Empty " ++ Text.leftBrace ++ Text.rightBrace],
      declarationLines "message Tree"
        [
          "seq=1 int32 value;",
          "optional seq=2 list[Tree] children;"
        ],
      declarationLines "message Grid"
        [
          "optional seq=1 list[list[int32]] rows;",
          "optional seq=2 map[uint8]float32 weights;",
          "optional seq=3 list[int32] totals;"
        ]
    ]

/- The schema of the search service. -/
def searchText : String :=
  textOfBlocks
    [
      ["# Search service used by the example app."],
      declarationLines "enum Corpus"
        [
          "universal,",
          "web,",
          "images,",
          "news,"
        ],
      declarationLines "message SearchRequest"
        [
          "seq=1 string query;",
          "optional seq=2 int32 pageNumber;",
          "optional seq=3 uint16 resultsPerPage;",
          "optional seq=4 Corpus corpus;",
          "optional seq=5 list[string] tags;"
        ],
      declarationLines "message Hit"
        [
          "seq=1 string url;",
          "optional seq=2 string title;",
          "optional seq=3 float64 score;",
          "optional seq=4 list[string] snippets;"
        ],
      declarationLines "message SearchResponse"
        [
          "optional seq=1 list[Hit] hits;",
          "optional seq=2 map[string]list[int32] facets;",
          "optional seq=3 uint64 total;",
          "optional seq=4 SearchRequest echo;"
        ],
      declarationLines "message Ping"
        ["optional seq=1 int64 nonce;"],
      declarationLines "service SearchService"
        [
          "Search(SearchRequest) return (SearchResponse);",
          "Record(Ping);"
        ]
    ]

/- The schema of the directory of contacts. -/
def contactsText : String :=
  textOfBlocks
    [
      ["# Encoded as JSON: see build.rs."],
      declarationLines "enum Kind"
        [
          "personal,",
          "work,"
        ],
      declarationLines "message Contact"
        [
          "seq=1 string name;",
          "optional seq=2 Kind kind;",
          "optional seq=3 map[string]string phones;",
          "optional seq=4 Address address;"
        ],
      declarationLines "message Address"
        [
          "seq=1 string city;",
          "optional seq=2 uint32 zip;"
        ],
      declarationLines "message Lookup"
        ["seq=1 string name;"],
      declarationLines "service Directory"
        ["Find(Lookup) return (Contact);"]
    ]

end Sample

end TagWire
