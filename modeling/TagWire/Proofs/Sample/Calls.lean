import TagWire.Proofs.Generated.Calls
import TagWire.Proofs.Sample.Agreement
import TagWire.Proofs.Typed.Recovery
import TagWire.Sample.SearchService

/-
  A search through a router gives what the service answers.
  The request and the response cross the wire in the format of
  their messages, where hits follow one another without a mark
  between them, and the request is repeated at the end. So it
  is with the adapter and the registration that are generated
  for the service.

  Main declarations:
    * `Sample.SearchRequest.recovers`
    * `Sample.Hit.recovers`
    * `Sample.SearchResponse.recovers`
    * `Sample.SearchService.implementation`
    * `Sample.SearchService.register_searchItem`
    * `Sample.call_generated_search`
-/

------------------------------------------------------------
-- Messages That Are Read Back
------------------------------------------------------------

namespace TagWire

namespace Sample

open Codec Format

theorem Corpus.recovers
    (corpus : Corpus) :
    codec.Recovers [] corpus :=
  recovers_enum (by decide) (by cases corpus <;> decide)

/- A request may have any fields unset, also the last ones. -/
theorem SearchRequest.recovers
    (x : SearchRequest) :
    format.Recovers [5, 4, 3, 2, 1] x x :=
  (recovers_start mk x)
    |>.field_any (by decide) oneZero_string
      (fun _ => recovers_string _)
    |>.field_any (by decide) (oneZero_int _)
      (fun _ => recovers_number _)
    |>.field_any (by decide) (oneZero_int _)
      (fun _ => recovers_number _)
    |>.field_any (by decide) oneZero_enum
      (fun _ => Corpus.recovers _)
    |>.field_any (by decide) (oneZero_list _)
      (fun _ => recovers_list fun tag _ => recovers_string tag)

/-
  A hit with snippets ends with them, whatever is behind it.
  Its score is not zero, which would be read without its sign.
-/
theorem Hit.recovers
    {x : Hit}
    (hScore : NumKind.isZero (.float .float64) x.score = false)
    (hSnippets : x.snippets ≠ []) :
    format.Recovers [] x x :=
  (recovers_start mk x)
    |>.field_any (by decide) oneZero_string
      (fun _ => recovers_string _)
    |>.field_any (by decide) oneZero_string
      (fun _ => recovers_string _)
    |>.field_set (by decide) hScore (recovers_number _)
    |>.field_set (by decide)
      (List.isEmpty_eq_false_iff.mpr hSnippets)
      (recovers_list fun snippet _ => recovers_string snippet)

/- Only the request that it repeats leaves a response open. -/
theorem SearchResponse.recovers
    {x : SearchResponse}
    (hHits : ∀ hit ∈ x.hits, Hit.format.Recovers [] hit hit) :
    format.Recovers [4, 3, 2, 1, 5, 4, 3, 2, 1] x x := by
  have hEcho :
      ∀ echo? : Option SearchRequest,
        (option (message SearchRequest)).isZero echo? = false →
          (option (message SearchRequest)).Recovers
            [5, 4, 3, 2, 1] echo? := by
    intro echo? hSet
    rcases echo? with _ | echo
    · cases hSet
    · refine recovers_some (recovers_message ?_)
      exact fun _ _ => (SearchRequest.recovers echo).decode
  exact
    (recovers_start mk x)
      |>.field_any (by decide) (oneZero_list _)
        (fun _ => recovers_list fun hit hMem =>
          recovers_message fun _ _ => (hHits hit hMem).decode)
      |>.field_any (by decide) oneZero_map
        (fun _ => recovers_map fun e _ =>
          ⟨recovers_string _,
            recovers_list fun number _ => recovers_number _⟩)
      |>.field_any (by decide) (oneZero_int _)
        (fun _ => recovers_number _)
      |>.field_any (by decide) (oneZero_option _) (hEcho _)

end Sample

end TagWire

------------------------------------------------------------
-- Messages That Are Written
------------------------------------------------------------

namespace TagWire

namespace Sample

open Codec Format

/- The lengths of a request fit their prefixes. -/
structure SearchRequest.Fits
    (x : SearchRequest) : Prop where
  query : x.query.utf8ByteSize ≤ maxLength
  count : x.tags.length ≤ maxLength
  tags : ∀ tag ∈ x.tags, tag.utf8ByteSize ≤ maxLength

/- A request with a query is written if its lengths fit. -/
theorem SearchRequest.writes
    {x : SearchRequest}
    (hQuery : x.query ≠ "")
    (hFits : x.Fits) :
    format.Writes x := by
  have hTags : (list string).Writes x.tags :=
    writes_list hFits.count
      fun tag hTag => writes_string (hFits.tags tag hTag)
  refine (writes_start mk x)
    |>.field ?_ (fun _ => writes_string hFits.query)
    |>.field (fun _ => rfl) (fun _ => writes_number _)
    |>.field (fun _ => rfl) (fun _ => writes_number _)
    |>.field (fun _ => rfl) (fun _ => writes_enum _)
    |>.field (fun _ => rfl) (fun _ => hTags)
  intro hUnset
  exact absurd (oneZero_string _ hUnset) hQuery

/- The lengths of a hit fit their prefixes. -/
structure Hit.Fits
    (x : Hit) : Prop where
  url : x.url.utf8ByteSize ≤ maxLength
  title : x.title.utf8ByteSize ≤ maxLength
  count : x.snippets.length ≤ maxLength
  snippets :
    ∀ snippet ∈ x.snippets, snippet.utf8ByteSize ≤ maxLength

/- A hit with an address is written if its lengths fit. -/
theorem Hit.writes
    {x : Hit}
    (hUrl : x.url ≠ "")
    (hFits : x.Fits) :
    format.Writes x := by
  have hSnippets : (list string).Writes x.snippets :=
    writes_list hFits.count
      fun snippet h => writes_string (hFits.snippets snippet h)
  refine (writes_start mk x)
    |>.field ?_ (fun _ => writes_string hFits.url)
    |>.field (fun _ => rfl) (fun _ => writes_string hFits.title)
    |>.field (fun _ => rfl) (fun _ => writes_number _)
    |>.field (fun _ => rfl) (fun _ => hSnippets)
  intro hUnset
  exact absurd (oneZero_string _ hUnset) hUrl

/- A response is written if its hits and its request are. -/
theorem SearchResponse.writes
    {x : SearchResponse}
    (hCount : x.hits.length ≤ maxLength)
    (hHits : ∀ hit ∈ x.hits, Hit.format.Writes hit)
    (hFacets : x.facets = Table.empty)
    (hEcho :
      ∀ echo, x.echo = some echo →
        SearchRequest.format.Writes echo) :
    format.Writes x := by
  have hList : (list (message Hit)).Writes x.hits :=
    writes_list hCount
      fun hit hMem => writes_message (hHits hit hMem)
  have hRequest :
      (option (message SearchRequest)).isZero x.echo = false →
        (option (message SearchRequest)).Writes x.echo := by
    intro hSet
    cases hSome : x.echo with
    | none =>
        rw [hSome] at hSet
        cases hSet
    | some echo =>
        exact writes_some (writes_message (hEcho echo hSome))
  refine (writes_start mk x)
    |>.field (fun _ => rfl) (fun _ => hList)
    |>.field (fun _ => rfl) ?_
    |>.field (fun _ => rfl) (fun _ => writes_number _)
    |>.field (fun _ => rfl) hRequest
  intro hSet
  rw [hFacets] at hSet
  cases hSet

end Sample

end TagWire

------------------------------------------------------------
-- The Answer of the Engine
------------------------------------------------------------

namespace TagWire

namespace Sample

open Codec Format

/-
  The lengths in a request and in the answer to it fit their
  prefixes. The longest text for a tag is the address of its
  hit, which has the tag and the query in it.
-/
structure SearchRequest.AnswerFits
    (x : SearchRequest) : Prop where
  query : x.query.utf8ByteSize ≤ maxLength
  count : x.tags.length ≤ maxLength
  urls :
    ∀ tag ∈ x.tags,
      (hitOf x.query tag).url.utf8ByteSize ≤ maxLength

/- What is written for a tag is shorter than the address. -/
theorem utf8ByteSize_url
    (query tag : String) :
    (hitOf query tag).url.utf8ByteSize =
      23 + tag.utf8ByteSize + query.utf8ByteSize := by
  have hUrl :
      (hitOf query tag).url =
        "https://example.com/" ++ tag ++ "?q=" ++ query := rfl
  have hFront : "https://example.com/".utf8ByteSize = 20 := rfl
  have hMiddle : "?q=".utf8ByteSize = 3 := rfl
  rw [hUrl, String.utf8ByteSize_append,
    String.utf8ByteSize_append, String.utf8ByteSize_append,
    hFront, hMiddle]
  omega

variable {x : SearchRequest}

theorem SearchRequest.AnswerFits.fits
    (h : x.AnswerFits) :
    x.Fits where
  query := h.query
  count := h.count
  tags := by
    intro tag hTag
    have hUrl := h.urls tag hTag
    rw [utf8ByteSize_url] at hUrl
    omega

theorem SearchRequest.AnswerFits.hit
    (h : x.AnswerFits)
    {tag : String}
    (hTag : tag ∈ x.tags) :
    (hitOf x.query tag).Fits where
  url := h.urls tag hTag
  title := h.fits.tags tag hTag
  count := by
    show 1 ≤ maxLength
    decide
  snippets := by
    intro snippet hMem
    obtain rfl := List.mem_singleton.mp hMem
    have hUrl := h.urls tag hTag
    have hFront : "all about ".utf8ByteSize = 10 := rfl
    rw [utf8ByteSize_url] at hUrl
    rw [String.utf8ByteSize_append, hFront]
    omega

/- The answer to a request can be written. -/
theorem writes_answer
    (hQuery : x.query ≠ "")
    (hFits : x.AnswerFits) :
    SearchResponse.format.Writes (answer x) := by
  refine SearchResponse.writes ?_ ?_ rfl ?_
  · rw [answer, List.length_map]
    exact hFits.count
  · intro hit hMem
    rcases List.mem_map.mp hMem with ⟨tag, hTag, rfl⟩
    refine Hit.writes ?_ (hFits.hit hTag)
    intro hEmpty
    have hSize := utf8ByteSize_url x.query tag
    rw [hEmpty] at hSize
    have hZero : "".utf8ByteSize = 0 := rfl
    omega
  · intro echo hEcho
    cases hEcho
    exact SearchRequest.writes hQuery hFits.fits

/- The answer to a request is read back. -/
theorem recovers_answer
    (x : SearchRequest) :
    SearchResponse.format.Recovers
      [4, 3, 2, 1, 5, 4, 3, 2, 1] (answer x) (answer x) := by
  apply SearchResponse.recovers
  intro hit hMem
  rcases List.mem_map.mp hMem with ⟨tag, hTag, rfl⟩
  have hScore :
      NumKind.isZero (.float .float64)
          (hitOf x.query tag).score = false := rfl
  exact Hit.recovers hScore (List.cons_ne_nil _ _)

end Sample

end TagWire

------------------------------------------------------------
-- Calls
------------------------------------------------------------

namespace TagWire

namespace Router

variable {m : Type → Type}

/- A handler is found by its method, others as before. -/
theorem handler?_register
    (r : Router m)
    (method method' : String)
    (handler : Handler m) :
    (r.register method handler).handler? method' =
      if method' = method then
        some handler
      else
        r.handler? method' := by
  show (Keyed.insert method handler
    r.handlers.entries).lookup method' = _
  simp only [Keyed.lookup_insert, beq_iff_eq]
  rfl

end Router

namespace Sample

open Generated

variable {m : Type → Type} [Monad m]

/- The methods of a service have names of their own. -/
theorem methodName_injective
    (name : String) :
    Function.Injective (methodName name) := by
  intro method method' h
  exact (String.append_right_inj (name ++ ".")).mp h

/- The request that some data is. -/
def SearchRequest.ofDatum?
    (d : Datum) :
    Option SearchRequest := do
  match d.field? "query", d.field? "page_number",
      d.field? "results_per_page", d.field? "corpus",
      d.field? "tags" with
  | some (.string query), some (.number (.int .int32) page),
      some (.number (.int .uint16) results),
      some (.variant _ ident), some (.list tags) => do
      let corpus ←
        [.universal, .web, .images, .news].find?
          (Corpus.name · == ident)
      let tags ← tags.mapM fun tag =>
        match tag with
        | .string text => some text
        | _ => none
      return ⟨query, page, results, corpus, tags⟩
  | _, _, _, _, _ => none

theorem SearchRequest.ofDatum?_datum
    (x : SearchRequest) :
    ofDatum? (datum x) = some x := by
  have hTags :
      (x.tags.map Datum.string).mapM (fun tag =>
        match tag with
        | .string text => some text
        | _ => none) = some x.tags := by
    induction x.tags with
    | nil => rfl
    | cons tag rest ih =>
        rw [List.map_cons, List.mapM_cons, ih]
        rfl
  have hCorpus :
      [Corpus.universal, .web, .images, .news].find?
          (Corpus.name · == x.corpus.name) =
        some x.corpus := by
    cases x.corpus <;> decide
  show Option.bind (List.find? _ _) _ = _
  rw [hCorpus]
  show Option.bind (List.mapM _ _) _ = _
  rw [hTags]
  rfl

/- The ping that some data is. -/
def Ping.ofDatum?
    (d : Datum) :
    Option Ping :=
  match d.field? "nonce" with
  | some (.number (.int .int64) nonce) => some ⟨nonce⟩
  | _ => none

theorem Ping.ofDatum?_datum
    (x : Ping) :
    ofDatum? (datum x) = some x := by
  rfl

/- What a search service offers, by names and from data. -/
def SearchService.implementation
    (s : SearchService m) :
    Implementation m
| "search", d =>
    match SearchRequest.ofDatum? d with
    | some x => Serve.lift (SearchResponse.datum <$> s.search x)
    | none => Serve.stuck
| "record", d =>
    match Ping.ofDatum? d with
    | some x => Serve.lift ((fun _ => .unit) <$> s.record x)
    | none => Serve.stuck
| _, _ => Serve.stuck

/- A handler that always has an outcome. -/
def liftHandler
    (handler : Handler m) :
    Handler (OptionT m) :=
  fun data => Serve.lift (handler data)

/-
  What is generated to register a search service binds the
  handlers of the service, under the name of each method.
-/
theorem SearchService.register_searchItem
    [LawfulMonad m]
    (lib : JsonLibrary)
    (s : SearchService m)
    (r : Router (OptionT m))
    (name : String) :
    searchItem.register lib searchProgram s.implementation r
        name =
      (r.register (methodName name "Search")
        (liftHandler s.searchHandler)).register
        (methodName name "Record")
        (liftHandler s.recordHandler) := by
  have hSearch :
      searchItem.handler lib searchProgram s.implementation
          "search_handler" =
        liftHandler s.searchHandler := by
    funext data
    exact
      handler_eq_ofFunction (SearchRequest.runsAs lib)
        (SearchResponse.runsAs lib)
        (fun x => by
          simp only [implementation,
            SearchRequest.ofDatum?_datum])
        _ data
  have hRecord :
      searchItem.handler lib searchProgram s.implementation
          "record_handler" =
        liftHandler s.recordHandler := by
    funext data
    exact
      handler_eq_ofAction (Ping.runsAs lib)
        (fun x => by
          simp only [implementation, Ping.ofDatum?_datum])
        _ data
  show (r.register _ (searchItem.handler lib searchProgram
    s.implementation "search_handler")).register _ _ = _
  rw [hSearch, hRecord]

/- Searches reach the handler of searches, in any router. -/
theorem SearchService.call_search
    [LawfulMonad m]
    (lib : JsonLibrary)
    (s : SearchService m)
    (r : Router (OptionT m))
    (name : String) :
    (searchItem.register lib searchProgram s.implementation r
        name).call (methodName name "Search") =
      liftHandler s.searchHandler := by
  have hNe :
      methodName name "Search" ≠ methodName name "Record" :=
    fun h => absurd (methodName_injective name h) (by decide)
  rw [Router.call, register_searchItem,
    Router.handler?_register, if_neg hNe,
    Router.handler?_register, if_pos rfl]

open Codec in
/-
  The code that is generated for the search service, with the
  engine as its implementation. Whatever is bound in a router
  before, and whatever pings the engine has kept: a search
  that the engine does not refuse and whose lengths fit is
  written, and the call of it has a reply that is read as the
  very response of the engine, with the request in it.
-/
theorem call_generated_search
    (lib : JsonLibrary)
    (r : Router (OptionT (StateM (List Nonce))))
    (name : String)
    (nonces : List Nonce)
    {request : SearchRequest}
    (hQuery : request.query ≠ "")
    (hAccepted : request.query ≠ refusedQuery)
    (hFits : request.AnswerFits) :
    Generates "search.dg" "search" searchText .binary
      searchProgram [searchItem] ∧
    ∃ data reply response,
      searchProgram.marshal lib request.datum =
        some (.ok data) ∧
      (engine.search request).run.run nonces =
        (.ok response, nonces) ∧
      ((searchItem.register lib searchProgram
          engine.implementation r name).call
          (methodName name "Search") data).run.run.run nonces =
        (some (.ok reply), nonces) ∧
      searchProgram.unmarshal lib "SearchResponse" reply =
        some (.ok response.datum) ∧
      response = answer request ∧
      response.echo = some request := by
  rcases SearchRequest.writes hQuery hFits.fits with
    ⟨data, hData⟩
  rcases writes_answer hQuery hFits with ⟨reply, hReply⟩
  have hRequest : WireMessage.decode data = .ok request := by
    have hDecode :=
      (SearchRequest.recovers request).decode hData
        (avoids_nil_right _)
    rwa [List.append_nil] at hDecode
  have hResponse :
      WireMessage.decode reply = .ok (answer request) := by
    have hDecode :=
      (recovers_answer request).decode hReply
        (avoids_nil_right _)
    rwa [List.append_nil] at hDecode
  have hSearch :
      engine.search request = pure (answer request) :=
    if_neg hAccepted
  have hCall :
      engine.searchHandler data = pure reply := by
    unfold SearchService.searchHandler Handler.ofFunction
    rw [hRequest]
    show engine.search request >>= _ = _
    rw [hSearch, pure_bind]
    show Handler.wire (SearchResponse.format.encode _) = _
    rw [hReply]
    rfl
  refine ⟨generates_search, data, reply, answer request, ?_, ?_,
    ?_, ?_, rfl, rfl⟩
  · rw [(SearchRequest.runsAs lib).marshal]
    exact congrArg some hData
  · rw [hSearch]
    rfl
  · rw [SearchService.call_search, liftHandler, hCall]
    rfl
  · rw [(SearchResponse.runsAs lib).unmarshal, hResponse]
    rfl

/- A search on page three, whose second tag is empty. -/
def newsRequest : SearchRequest where
  query := "rust"
  pageNumber := 3
  resultsPerPage := 0
  corpus := .news
  tags := ["docs", ""]

theorem call_generated_search_news :
    newsRequest.query ≠ "" ∧
    newsRequest.query ≠ refusedQuery ∧
    newsRequest.AnswerFits ∧
    ∃ data reply response,
      searchProgram.marshal .missing newsRequest.datum =
        some (.ok data) ∧
      ((searchItem.register .missing searchProgram
          engine.implementation Router.empty "search").call
          (methodName "search" "Search") data).run.run.run [] =
        (some (.ok reply), []) ∧
      searchProgram.unmarshal .missing "SearchResponse" reply =
        some (.ok response.datum) ∧
      response = answer newsRequest ∧
      response.echo = some newsRequest := by
  have hQuery : newsRequest.query ≠ "" := by decide
  have hAccepted : newsRequest.query ≠ refusedQuery := by
    decide
  have hFits : newsRequest.AnswerFits :=
    ⟨by decide +kernel, by decide +kernel, by decide +kernel⟩
  rcases call_generated_search .missing Router.empty "search" []
      hQuery hAccepted hFits with
    ⟨_, data, reply, response, hData, _, hCall, hReply⟩
  exact
    ⟨hQuery, hAccepted, hFits, data, reply, response, hData,
      hCall, hReply⟩

end Sample

end TagWire
