import TagWire.Proofs.Generated.Typed
import TagWire.Proofs.Sample.Tree
import TagWire.Proofs.Schema.Resolution
import TagWire.Sample.Search

/-
  The codecs of the sample messages do what the codecs of the
  schemas do that declare them, and so what the code does that
  is generated from the schemas. For each message it is said
  which values are like it, and by which data it is held.

  Main declarations:
    * `Sample.Person.runsAs`, and likewise for each message
    * `Sample.Tree.hasType_iff`
-/

------------------------------------------------------------
-- Scalars
------------------------------------------------------------

namespace TagWire

namespace Sample

open Codec Format Generated Likeness Value

variable (lib : JsonLibrary)

def Person.Like : Likeness Person :=
  .message "Person"
    [
      .of "name" .string "" name,
      .of "age" (.number _) 0 age
    ]

def Person.datum
    (x : Person) :
    Datum :=
  .struct "Person"
    [
      ("name", .string x.name),
      ("age", .number _ x.age)
    ]

theorem Person.agree :
    CodecsAgree casesSchema "Person" Person Like := by
  have hMirrors :=
    (mirrors_start casesSchema (decode casesSchema) mk)
      |>.field declaration.fields[0] name (by decide)
        field_string
      |>.field declaration.fields[1] age (by decide)
        (field_number _)
  refine hMirrors.codecsAgree (m := declaration) rfl rfl
    (by decide) ?_
  intro get x
  rcases x with ⟨⟩
  simp [With, Slot.of]

theorem Person.portrays :
    Portrays casesSchema (.named (.message "Person"))
      Like datum := by
  refine portrays_message wellFormed_cases (m := declaration)
    (by decide) (by decide) ?_
  refine .cons (by decide)
    (slotPortrays_of declaration.fields[0] name
      portrays_string rfl rfl) ?_
  refine .cons (by decide)
    (slotPortrays_of declaration.fields[1] age
      (portrays_number _) rfl rfl) ?_
  exact .nil

theorem Person.runsAs :
    RunsAs lib casesProgram "Person" datum :=
  (agrees_cases lib (by decide)).runsAs agree (by decide)
    portrays

def Window.Like : Likeness Window :=
  .message "Window"
    [
      .of "first" (.number _) 0 first,
      .of "second" (.number _) 0 second
    ]

def Window.datum
    (x : Window) :
    Datum :=
  .struct "Window"
    [
      ("first", .number _ x.first),
      ("second", .number _ x.second)
    ]

theorem Window.agree :
    CodecsAgree casesSchema "Window" Window Like := by
  have hMirrors :=
    (mirrors_start casesSchema (decode casesSchema) mk)
      |>.field declaration.fields[0] first (by decide)
        (field_number _)
      |>.field declaration.fields[1] second (by decide)
        (field_number _)
  refine hMirrors.codecsAgree (m := declaration) rfl rfl
    (by decide) ?_
  intro get x
  rcases x with ⟨⟩
  simp [With, Slot.of]

theorem Window.portrays :
    Portrays casesSchema (.named (.message "Window"))
      Like datum := by
  refine portrays_message wellFormed_cases (m := declaration)
    (by decide) (by decide) ?_
  refine .cons (by decide)
    (slotPortrays_of declaration.fields[0] first
      (portrays_number _) rfl rfl) ?_
  refine .cons (by decide)
    (slotPortrays_of declaration.fields[1] second
      (portrays_number _) rfl rfl) ?_
  exact .nil

theorem Window.runsAs :
    RunsAs lib casesProgram "Window" datum :=
  (agrees_cases lib (by decide)).runsAs agree (by decide)
    portrays

def StrictWindow.Like : Likeness StrictWindow :=
  .message "StrictWindow"
    [
      .of "first" (.number _) 0 first,
      .of "second" (.number _) 0 second
    ]

def StrictWindow.datum
    (x : StrictWindow) :
    Datum :=
  .struct "StrictWindow"
    [
      ("first", .number _ x.first),
      ("second", .number _ x.second)
    ]

theorem StrictWindow.agree :
    CodecsAgree casesSchema "StrictWindow" StrictWindow Like := by
  have hMirrors :=
    (mirrors_start casesSchema (decode casesSchema) mk)
      |>.field declaration.fields[0] first (by decide)
        (field_number _)
      |>.field declaration.fields[1] second (by decide)
        (field_number _)
  refine hMirrors.codecsAgree (m := declaration) rfl rfl
    (by decide) ?_
  intro get x
  rcases x with ⟨⟩
  simp [With, Slot.of]

theorem StrictWindow.portrays :
    Portrays casesSchema (.named (.message "StrictWindow"))
      Like datum := by
  refine portrays_message wellFormed_cases (m := declaration)
    (by decide) (by decide) ?_
  refine .cons (by decide)
    (slotPortrays_of declaration.fields[0] first
      (portrays_number _) rfl rfl) ?_
  refine .cons (by decide)
    (slotPortrays_of declaration.fields[1] second
      (portrays_number _) rfl rfl) ?_
  exact .nil

theorem StrictWindow.runsAs :
    RunsAs lib casesProgram "StrictWindow" datum :=
  (agrees_cases lib (by decide)).runsAs agree (by decide)
    portrays

def Empty.Like : Likeness Empty :=
  .message "Empty" []

def Empty.datum
    (_x : Empty) :
    Datum :=
  .struct "Empty" []

theorem Empty.agree :
    CodecsAgree casesSchema "Empty" Empty Like := by
  have hMirrors :=
    mirrors_start (μ := Empty) casesSchema (decode casesSchema)
      mk
  refine hMirrors.codecsAgree (m := declaration) rfl rfl
    (by decide) ?_
  intro get x
  rcases x with ⟨⟩
  simp

theorem Empty.portrays :
    Portrays casesSchema (.named (.message "Empty"))
      Like datum := by
  refine portrays_message wellFormed_cases (m := declaration)
    (by decide) (by decide) ?_
  exact .nil

theorem Empty.runsAs :
    RunsAs lib casesProgram "Empty" datum :=
  (agrees_cases lib (by decide)).runsAs agree (by decide)
    portrays

end Sample

end TagWire

------------------------------------------------------------
-- Nested Messages
------------------------------------------------------------

namespace TagWire

namespace Sample

open Codec Format Generated Likeness Value

variable (lib : JsonLibrary)

def Header.Like : Likeness Header :=
  .message "Header"
    [
      .of "kind" .string "" kind,
      .of "flags" (.list (.number _)) [] flags
    ]

def Header.datum
    (x : Header) :
    Datum :=
  .struct "Header"
    [
      ("kind", .string x.kind),
      ("flags", .list (x.flags.map (.number _)))
    ]

theorem Header.agree :
    CodecsAgree casesSchema "Header" Header Like := by
  have hMirrors :=
    (mirrors_start casesSchema (decode casesSchema) mk)
      |>.field declaration.fields[0] kind (by decide)
        field_string
      |>.field declaration.fields[1] flags (by decide)
        (field_list (mirrors_number _) (faithful_number _))
  refine hMirrors.codecsAgree (m := declaration) rfl rfl
    (by decide) ?_
  intro get x
  rcases x with ⟨⟩
  simp [With, Slot.of]

theorem Header.portrays :
    Portrays casesSchema (.named (.message "Header"))
      Like datum := by
  refine portrays_message wellFormed_cases (m := declaration)
    (by decide) (by decide) ?_
  refine .cons (by decide)
    (slotPortrays_of declaration.fields[0] kind
      portrays_string rfl rfl) ?_
  refine .cons (by decide)
    (slotPortrays_of declaration.fields[1] flags
      (portrays_number _).list rfl rfl) ?_
  exact .nil

theorem Header.runsAs :
    RunsAs lib casesProgram "Header" datum :=
  (agrees_cases lib (by decide)).runsAs agree (by decide)
    portrays

def Envelope.Like : Likeness Envelope :=
  .message "Envelope"
    [
      .of "header" (.option Header.Like) none header,
      .of "checksum" (.number _) 0 checksum
    ]

def Envelope.datum
    (x : Envelope) :
    Datum :=
  .struct "Envelope"
    [
      ("header", optionDatum Header.datum x.header),
      ("checksum", .number _ x.checksum)
    ]

theorem Envelope.agree :
    CodecsAgree casesSchema "Envelope" Envelope Like := by
  have hMirrors :=
    (mirrors_start casesSchema (decode casesSchema) mk)
      |>.field declaration.fields[0] header (by decide)
        (field_option (fun _ => rfl) Header.agree.mirrors
          Header.agree.faithful)
      |>.field declaration.fields[1] checksum (by decide)
        (field_number _)
  refine hMirrors.codecsAgree (m := declaration) rfl rfl
    (by decide) ?_
  intro get x
  rcases x with ⟨⟩
  simp [With, Slot.of]

theorem Envelope.portrays :
    Portrays casesSchema (.named (.message "Envelope"))
      Like datum := by
  refine portrays_message wellFormed_cases (m := declaration)
    (by decide) (by decide) ?_
  refine .cons (by decide)
    (slotPortrays_option declaration.fields[0] header
      Header.portrays rfl) ?_
  refine .cons (by decide)
    (slotPortrays_of declaration.fields[1] checksum
      (portrays_number _) rfl rfl) ?_
  exact .nil

theorem Envelope.runsAs :
    RunsAs lib casesProgram "Envelope" datum :=
  (agrees_cases lib (by decide)).runsAs agree (by decide)
    portrays

end Sample

end TagWire

------------------------------------------------------------
-- Containers
------------------------------------------------------------

namespace TagWire

namespace Sample

open Codec Format Generated Likeness Value

variable (lib : JsonLibrary)

def Grid.Like : Likeness Grid :=
  .message "Grid"
    [
      .of "rows" (.list (.list (.number _))) [] rows,
      .of "weights" (.map (.int .uint8) (.number _)) .empty
        weights,
      .of "totals" (.list (.number _)) [] totals
    ]

def Grid.datum
    (x : Grid) :
    Datum :=
  .struct "Grid"
    [
      ("rows",
        .list (x.rows.map fun row => .list (row.map (.number _)))),
      ("weights",
        .map
          (x.weights.entries.map fun e =>
            (.int .uint8 e.1, .number _ e.2))),
      ("totals", .list (x.totals.map (.number _)))
    ]

theorem Grid.agree :
    CodecsAgree casesSchema "Grid" Grid Like := by
  have hMirrors :=
    (mirrors_start casesSchema (decode casesSchema) mk)
      |>.field declaration.fields[0] rows (by decide)
        (field_list (mirrors_list (mirrors_number _))
          (faithful_number _).list)
      |>.field declaration.fields[1] weights (by decide)
        (field_map (mirrorsKey_int rfl) (mirrors_number _)
          (faithful_number _))
      |>.field declaration.fields[2] totals (by decide)
        (field_list (mirrors_number _) (faithful_number _))
  refine hMirrors.codecsAgree (m := declaration) rfl rfl
    (by decide) ?_
  intro get x
  rcases x with ⟨⟩
  simp [With, Slot.of, and_assoc]

theorem Grid.portrays :
    Portrays casesSchema (.named (.message "Grid"))
      Like datum := by
  refine portrays_message wellFormed_cases (m := declaration)
    (by decide) (by decide) ?_
  refine .cons (by decide)
    (slotPortrays_of declaration.fields[0] rows
      (portrays_number _).list.list rfl rfl) ?_
  refine .cons (by decide)
    (slotPortrays_of declaration.fields[1] weights
      ((portrays_number _).map (mirrorsKey_int rfl).order
        fun _ => rfl) rfl rfl) ?_
  refine .cons (by decide)
    (slotPortrays_of declaration.fields[2] totals
      (portrays_number _).list rfl rfl) ?_
  exact .nil

theorem Grid.runsAs :
    RunsAs lib casesProgram "Grid" datum :=
  (agrees_cases lib (by decide)).runsAs agree (by decide)
    portrays

end Sample

end TagWire

------------------------------------------------------------
-- Search
------------------------------------------------------------

namespace TagWire

namespace Sample

open Codec Format Generated Likeness Value

variable (lib : JsonLibrary)

/- Collections are carried as the variants of their names. -/
def Corpus.Like : Likeness Corpus :=
  .enum "Corpus" name

theorem Corpus.name_injective :
    Function.Injective name := by
  intro a b hSame
  cases a <;> cases b <;> simp_all [name]

def Corpus.datum
    (corpus : Corpus) :
    Datum :=
  .variant "Corpus" corpus.name

theorem Corpus.portrays :
    Portrays searchSchema (.named (.enum "Corpus"))
      Corpus.Like datum :=
  portrays_enum (e := declaration) (by decide) (by decide)
    fun a => by cases a <;> decide

theorem Corpus.field_codec
    {nested : MessageDecoder} :
    codec.MirrorsField searchSchema nested
      (.named (.enum "Corpus")) Corpus.Like where
  mirrors := by
    refine mirrors_enum (e := declaration) rfl rfl rfl
      name_injective ?_
    intro a
    cases a <;> decide
  zero := rfl
  faithful := (faithful_enum "Corpus" name_injective).orZero _

def SearchRequest.Like : Likeness SearchRequest :=
  .message "SearchRequest"
    [
      .of "query" .string "" query,
      .of "pageNumber" (.number _) 0 pageNumber,
      .of "resultsPerPage" (.number _) 0 resultsPerPage,
      .of "corpus" Corpus.Like .universal corpus,
      .of "tags" (.list .string) [] tags
    ]

def SearchRequest.datum
    (x : SearchRequest) :
    Datum :=
  .struct "SearchRequest"
    [
      ("query", .string x.query),
      ("page_number", .number _ x.pageNumber),
      ("results_per_page", .number _ x.resultsPerPage),
      ("corpus", x.corpus.datum),
      ("tags", .list (x.tags.map .string))
    ]

theorem SearchRequest.agree :
    CodecsAgree searchSchema "SearchRequest" SearchRequest
      Like := by
  have hMirrors :=
    (mirrors_start searchSchema (decode searchSchema) mk)
      |>.field declaration.fields[0] query (by decide)
        field_string
      |>.field declaration.fields[1] pageNumber (by decide)
        (field_number _)
      |>.field declaration.fields[2] resultsPerPage (by decide)
        (field_number _)
      |>.field declaration.fields[3] corpus (by decide)
        Corpus.field_codec
      |>.field declaration.fields[4] tags (by decide)
        (field_list mirrors_string faithful_string)
  refine hMirrors.codecsAgree (m := declaration) rfl rfl
    (by decide) ?_
  intro get x
  rcases x with ⟨⟩
  simp [With, Slot.of, and_assoc]

theorem SearchRequest.portrays :
    Portrays searchSchema (.named (.message "SearchRequest"))
      Like datum := by
  refine portrays_message wellFormed_search (m := declaration)
    (by decide) (by decide) ?_
  refine .cons (by decide)
    (slotPortrays_of declaration.fields[0] query
      portrays_string rfl rfl) ?_
  refine .cons (by decide)
    (slotPortrays_of declaration.fields[1] pageNumber
      (portrays_number _) rfl rfl) ?_
  refine .cons (by decide)
    (slotPortrays_of declaration.fields[2] resultsPerPage
      (portrays_number _) rfl rfl) ?_
  refine .cons (by decide)
    (slotPortrays_of declaration.fields[3] corpus
      Corpus.portrays rfl rfl) ?_
  refine .cons (by decide)
    (slotPortrays_of declaration.fields[4] tags
      portrays_string.list rfl rfl) ?_
  exact .nil

theorem SearchRequest.runsAs :
    RunsAs lib searchProgram "SearchRequest" datum :=
  (agrees_search lib (by decide)).runsAs agree (by decide)
    portrays

def Hit.Like : Likeness Hit :=
  .message "Hit"
    [
      .of "url" .string "" url,
      .of "title" .string "" title,
      .of "score" (.number _) 0 score,
      .of "snippets" (.list .string) [] snippets
    ]

def Hit.datum
    (x : Hit) :
    Datum :=
  .struct "Hit"
    [
      ("url", .string x.url),
      ("title", .string x.title),
      ("score", .number _ x.score),
      ("snippets", .list (x.snippets.map .string))
    ]

theorem Hit.agree :
    CodecsAgree searchSchema "Hit" Hit Like := by
  have hMirrors :=
    (mirrors_start searchSchema (decode searchSchema) mk)
      |>.field declaration.fields[0] url (by decide)
        field_string
      |>.field declaration.fields[1] title (by decide)
        field_string
      |>.field declaration.fields[2] score (by decide)
        (field_number _)
      |>.field declaration.fields[3] snippets (by decide)
        (field_list mirrors_string faithful_string)
  refine hMirrors.codecsAgree (m := declaration) rfl rfl
    (by decide) ?_
  intro get x
  rcases x with ⟨⟩
  simp [With, Slot.of, and_assoc]

theorem Hit.portrays :
    Portrays searchSchema (.named (.message "Hit"))
      Like datum := by
  refine portrays_message wellFormed_search (m := declaration)
    (by decide) (by decide) ?_
  refine .cons (by decide)
    (slotPortrays_of declaration.fields[0] url portrays_string
      rfl rfl) ?_
  refine .cons (by decide)
    (slotPortrays_of declaration.fields[1] title
      portrays_string rfl rfl) ?_
  refine .cons (by decide)
    (slotPortrays_of declaration.fields[2] score
      (portrays_number _) rfl rfl) ?_
  refine .cons (by decide)
    (slotPortrays_of declaration.fields[3] snippets
      portrays_string.list rfl rfl) ?_
  exact .nil

theorem Hit.runsAs :
    RunsAs lib searchProgram "Hit" datum :=
  (agrees_search lib (by decide)).runsAs agree (by decide)
    portrays

def SearchResponse.Like : Likeness SearchResponse :=
  .message "SearchResponse"
    [
      .of "hits" (.list Hit.Like) [] hits,
      .of "facets" (.map .string (.list (.number _))) .empty
        facets,
      .of "total" (.number _) 0 total,
      .of "echo" (.option SearchRequest.Like) none echo
    ]

def SearchResponse.datum
    (x : SearchResponse) :
    Datum :=
  .struct "SearchResponse"
    [
      ("hits", .list (x.hits.map Hit.datum)),
      ("facets",
        .map
          (x.facets.entries.map fun e =>
            (.string e.1, .list (e.2.map (.number _))))),
      ("total", .number _ x.total),
      ("echo", optionDatum SearchRequest.datum x.echo)
    ]

theorem SearchResponse.agree :
    CodecsAgree searchSchema "SearchResponse" SearchResponse
      Like := by
  have hMirrors :=
    (mirrors_start searchSchema (decode searchSchema) mk)
      |>.field declaration.fields[0] hits (by decide)
        (field_list Hit.agree.mirrors Hit.agree.faithful)
      |>.field declaration.fields[1] facets (by decide)
        (field_map mirrorsKey_string
          (mirrors_list (mirrors_number _))
          (faithful_number _).list)
      |>.field declaration.fields[2] total (by decide)
        (field_number _)
      |>.field declaration.fields[3] echo (by decide)
        (field_option (fun _ => rfl) SearchRequest.agree.mirrors
          SearchRequest.agree.faithful)
  refine hMirrors.codecsAgree (m := declaration) rfl rfl
    (by decide) ?_
  intro get x
  rcases x with ⟨⟩
  simp [With, Slot.of, and_assoc]

theorem SearchResponse.portrays :
    Portrays searchSchema (.named (.message "SearchResponse"))
      Like datum := by
  refine portrays_message wellFormed_search (m := declaration)
    (by decide) (by decide) ?_
  refine .cons (by decide)
    (slotPortrays_of declaration.fields[0] hits
      Hit.portrays.list rfl rfl) ?_
  refine .cons (by decide)
    (slotPortrays_of declaration.fields[1] facets
      ((portrays_number _).list.map mirrorsKey_string.order
        fun _ => rfl) rfl rfl) ?_
  refine .cons (by decide)
    (slotPortrays_of declaration.fields[2] total
      (portrays_number _) rfl rfl) ?_
  refine .cons (by decide)
    (slotPortrays_option declaration.fields[3] echo
      SearchRequest.portrays rfl) ?_
  exact .nil

theorem SearchResponse.runsAs :
    RunsAs lib searchProgram "SearchResponse" datum :=
  (agrees_search lib (by decide)).runsAs agree (by decide)
    portrays

def Ping.Like : Likeness Ping :=
  .message "Ping"
    [
      .of "nonce" (.number _) 0 nonce
    ]

def Ping.datum
    (x : Ping) :
    Datum :=
  .struct "Ping"
    [
      ("nonce", .number _ x.nonce)
    ]

theorem Ping.agree :
    CodecsAgree searchSchema "Ping" Ping Like := by
  have hMirrors :=
    (mirrors_start searchSchema (decode searchSchema) mk)
      |>.field declaration.fields[0] nonce (by decide)
        (field_number _)
  refine hMirrors.codecsAgree (m := declaration) rfl rfl
    (by decide) ?_
  intro get x
  rcases x with ⟨⟩
  simp [With, Slot.of]

theorem Ping.portrays :
    Portrays searchSchema (.named (.message "Ping"))
      Like datum := by
  refine portrays_message wellFormed_search (m := declaration)
    (by decide) (by decide) ?_
  refine .cons (by decide)
    (slotPortrays_of declaration.fields[0] nonce
      (portrays_number _) rfl rfl) ?_
  exact .nil

theorem Ping.runsAs :
    RunsAs lib searchProgram "Ping" datum :=
  (agrees_search lib (by decide)).runsAs agree (by decide)
    portrays

end Sample

end TagWire

------------------------------------------------------------
-- Trees
------------------------------------------------------------

namespace TagWire

namespace Sample

namespace Tree

open Generated Likeness

variable (lib : JsonLibrary)

mutual

/- The data of a tree. -/
def datum : Tree → Datum
| node value children =>
    .struct "Tree"
      [
        ("value", .number _ value),
        ("children", .list (datumAll children))
      ]

/- The data of some trees. -/
def datumAll : List Tree → List Datum
| [] => []
| t :: rest => t.datum :: datumAll rest

end

theorem datumAll_eq
    (ts : List Tree) :
    datumAll ts = ts.map datum := by
  induction ts with
  | nil => rw [datumAll, List.map_nil]
  | cons t rest ih => rw [datumAll, ih, List.map_cons]

theorem datum_eq
    (t : Tree) :
    t.datum =
      .struct "Tree"
        [
          ("value", .number _ t.value),
          ("children", .list (t.children.map datum))
        ] := by
  rcases t with ⟨value, children⟩
  rw [datum, datumAll_eq]
  rfl

/- What a tree is made of stands for its fields. -/
theorem fieldsPortray
    {R : Likeness Tree}
    (h :
      Portrays casesSchema (.named (.message "Tree")) R datum) :
    FieldsPortray casesSchema declaration.fields
      [
        .of "value" (.number _) 0 value,
        .of "children" (.list R) [] children
      ]
      fun t =>
        [
          ("value", .number _ t.value),
          ("children", .list (t.children.map datum))
        ] := by
  refine .cons (by decide)
    (slotPortrays_of declaration.fields[0] value
      (portrays_number _) rfl rfl) ?_
  refine .cons (by decide)
    (slotPortrays_of declaration.fields[1] children h.list rfl rfl) ?_
  exact .nil

theorem portrays :
    Portrays casesSchema (.named (.message "Tree"))
      Like datum := by
  intro v t h
  induction t using induct generalizing v with
  | node value children ih =>
      -- The trees below are known to be held.
      let R : Likeness Tree := fun v t =>
        Held casesSchema (.named (.message "Tree")) v ∧
          Generated.datum casesSchema v = t.datum
      have hFields := fieldsPortray (R := R) fun _ _ h => h
      rw [datum_eq]
      refine
        portrays_message wellFormed_cases (m := declaration)
          (by decide) (by decide) hFields v _ ?_
      rw [like_eq] at h
      rcases h with ⟨fields, rfl, hAscending, hDeclared, hHolds⟩
      refine ⟨fields, rfl, hAscending, hDeclared, ?_⟩
      rcases List.forall_mem_cons.mp hHolds with
        ⟨hValue, hRest⟩
      have hBelow :
          OrZero (.list Like) [] (fields.lookup "children")
            children :=
        hRest _ List.mem_cons_self
      refine List.forall_mem_cons.mpr ⟨hValue, ?_⟩
      exact List.forall_mem_singleton.mpr
        (orZero_list_imp_of_mem (fun t ht v => ih t ht v) hBelow)

theorem runsAs :
    RunsAs lib casesProgram "Tree" datum :=
  (agrees_cases lib (by decide)).runsAs agree (by decide)
    portrays

/- A value that is held by the data of a tree is like one. -/
theorem exists_like_of_held
    {type : ResolvedType}
    {v : Value}
    (h : Held casesSchema type v) :
    (type = .named (.message "Tree") → ∃ t, Like v t) ∧
      (type = .list (.named (.message "Tree")) →
        ∃ ts, Likeness.list Like v ts) := by
  induction h with
  | @list element vs _ ih =>
      refine ⟨nofun, ?_⟩
      rintro ⟨⟩
      have hEach : ∀ v ∈ vs, ∃ t, Like v t :=
        fun v hv => (ih v hv).1 rfl
      rcases exists_forall₂ (R := fun t v => Like v t) hEach with
        ⟨ts, hTrees⟩
      exact ⟨ts, vs, rfl, hTrees.flip⟩
  | @message m fields hm hAscending hDeclared hValues ih =>
      refine ⟨fun hType => ?_, nofun⟩
      have hName : m.name = "Tree" := by
        injection hType with hReferent
        injection hReferent
      have hFind := Schema.message?_of_mem wellFormed_cases hm
      rw [hName] at hFind
      obtain rfl : declaration = m := Option.some.inj hFind
      obtain ⟨value, hValue⟩ :
          ∃ word : Int32Word,
            OrZero (.number _) 0 (fields.lookup "value")
              word := by
        cases hLookup : fields.lookup "value" with
        | none => exact ⟨0, rfl⟩
        | some v =>
            have hHeld :=
              hValues _ (Keyed.mem_of_lookup hLookup)
                declaration.fields[0] (by decide) rfl
            cases hHeld with
            | number => exact ⟨_, rfl⟩
      obtain ⟨children, hChildren⟩ :
          ∃ ts,
            OrZero (.list Like) [] (fields.lookup "children")
              ts := by
        cases hLookup : fields.lookup "children" with
        | none => exact ⟨[], rfl⟩
        | some v =>
            exact
              (ih _ (Keyed.mem_of_lookup hLookup)
                declaration.fields[1] (by decide) rfl).2 rfl
      refine ⟨node value children, ?_⟩
      rw [like_eq]
      refine ⟨fields, rfl, hAscending, hDeclared, ?_⟩
      refine List.forall_mem_cons.mpr ⟨hValue, ?_⟩
      exact List.forall_mem_singleton.mpr hChildren
  | _ => exact ⟨nofun, nofun⟩

/- The data of the type of trees is that of the trees. -/
theorem hasType_iff
    (d : Datum) :
    casesProgram.HasType (.named "Tree") d ↔
      ∃ t, datum t = d := by
  have hIdent : Names.typeIdent declaration.name = "Tree" := by
    decide
  have hStructs :=
    serves_casesProgram.hasType_message_iff wellFormed_cases
      (m := declaration) (by decide) d
  rw [hIdent] at hStructs
  refine hStructs.trans ⟨?_, ?_⟩
  · rintro ⟨v, hHeld, rfl⟩
    rcases (exists_like_of_held hHeld).1 rfl with ⟨t, hLike⟩
    exact ⟨t, (portrays v t hLike).2.symm⟩
  · rintro ⟨t, rfl⟩
    rcases exists_like t with ⟨v, hLike⟩
    exact ⟨v, portrays v t hLike⟩

end Tree

end Sample

end TagWire
