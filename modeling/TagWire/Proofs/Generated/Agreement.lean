import TagWire.Proofs.Generated.Reading
import TagWire.Proofs.Generated.Services
import TagWire.Proofs.Generated.Serving
import TagWire.Proofs.Generated.Typing
import TagWire.Proofs.Value.Canonical

/-
  The code that is generated from a schema reads and writes
  its messages as the schema's own codec does.

  Main declarations:
    * `Generated.Agrees`
    * `Generated.agrees_ofSchema`
    * `Sample.generated_codecs_agree`
-/

------------------------------------------------------------
-- Agreement
------------------------------------------------------------

namespace TagWire

namespace Generated

open Value

variable {s : ResolvedSchema}

/-
  A program agrees with a schema about the message of a name.
  From any bytes the program reads the data of the value that
  the schema decodes, in which the fields that are left out
  are zero; or both report the same fault. The data of a value
  is written as the value is encoded, to the same bytes or
  with the same fault. The data of the message's type is that
  of its values.
-/
structure Agrees
    (lib : JsonLibrary)
    (p : Program)
    (s : ResolvedSchema)
    (name : String) : Prop where
  unmarshal :
    ∀ data,
      Meets (p.unmarshal lib (Names.typeIdent name) data)
        (decode s name data)
        fun v d =>
          Held s (.named (.message name)) v ∧ d = datum s v
  marshal :
    ∀ v, Held s (.named (.message name)) v →
      Meets (p.marshal lib (datum s v)) (v.encode s)
        fun bytes bytes' => bytes' = bytes
  structs :
    ∀ d, p.HasType (.named (Names.typeIdent name)) d ↔
      ∃ v, Held s (.named (.message name)) v ∧ datum s v = d

theorem Serves.agrees
    {p : Program}
    (hp : Serves p s)
    (hs : s.WellFormed)
    (lib : JsonLibrary)
    {m : Message TypeRef}
    (hm : m ∈ s.messages) :
    Agrees lib p s m.name where
  unmarshal := hp.unmarshal_eq hs hm
  marshal _ hHeld := hp.marshal_datum hs hHeld
  structs := hp.hasType_message_iff hs hm

/- What is generated from a schema agrees with it. -/
theorem agrees_ofSchema
    {text : String}
    (h : compile text = .ok s)
    (hNames : NamesApart s)
    (lib : JsonLibrary)
    {m : Message TypeRef}
    (hm : m ∈ s.messages) :
    Agrees lib (Program.ofSchema .binary s) s m.name :=
  (serves_ofSchema h hNames).agrees
    (Schema.wellFormed_of_compile h) lib hm

end Generated

end TagWire

------------------------------------------------------------
-- Sample Messages
------------------------------------------------------------

namespace TagWire

namespace Sample

open Generated

/- What is generated for the messages that reach corners. -/
def casesProgram : Program :=
  .ofSchema .binary casesSchema

theorem generates_cases :
    Generates "cases.dg" "cases" casesText .binary
      casesProgram [] :=
  generates_ofSchema compile_casesText _ _ _

theorem wellFormed_cases :
    casesSchema.WellFormed :=
  Schema.wellFormed_of_compile compile_casesText

theorem serves_casesProgram :
    Serves casesProgram casesSchema :=
  serves_ofSchema compile_casesText (by decide +kernel)

/- What is generated for the messages of the search service. -/
def searchProgram : Program :=
  .ofSchema .binary searchSchema

/- What is generated for the search service. -/
def searchItem : ServiceItem :=
  {
    ident := "SearchService"
    offered :=
      [
        ⟨"search", "SearchRequest", some "SearchResponse"⟩,
        ⟨"record", "Ping", none⟩
      ]
    overBytes := ["search_handler", "record_handler"]
    adapted :=
      [
        ⟨"search_handler",
          .unmarshal "SearchRequest" (.var "req"), "search",
          some (.marshal (.borrow (.var "reply")))⟩,
        ⟨"record_handler", .unmarshal "Ping" (.var "req"),
          "record", none⟩
      ]
    registerIdent := "register_search_service"
    registrations :=
      [
        ⟨"Search", "search_handler"⟩,
        ⟨"Record", "record_handler"⟩
      ]
  }

theorem generates_search :
    Generates "search.dg" "search" searchText .binary
      searchProgram [searchItem] := by
  have hItem :
      searchSchema.services.map serviceItem = [searchItem] := by
    decide +kernel
  rw [← hItem]
  exact generates_ofSchema compile_searchText _ _ _

theorem wellFormed_search :
    searchSchema.WellFormed :=
  Schema.wellFormed_of_compile compile_searchText

theorem serves_searchProgram :
    Serves searchProgram searchSchema :=
  serves_ofSchema compile_searchText (by decide +kernel)

variable (lib : JsonLibrary)
variable {name : String}

theorem agrees_cases
    (h : name ∈ casesSchema.messages.map Message.name) :
    Agrees lib casesProgram casesSchema name := by
  rcases List.mem_map.mp h with ⟨m, hm, rfl⟩
  exact serves_casesProgram.agrees wellFormed_cases lib hm

theorem agrees_search
    (h : name ∈ searchSchema.messages.map Message.name) :
    Agrees lib searchProgram searchSchema name := by
  rcases List.mem_map.mp h with ⟨m, hm, rfl⟩
  exact serves_searchProgram.agrees wellFormed_search lib hm

/-
  From the two schema texts two programs are generated, and
  each of them agrees with its schema about every message.
-/
theorem generated_codecs_agree :
    Generates "cases.dg" "cases" casesText .binary
      casesProgram [] ∧
    Generates "search.dg" "search" searchText .binary
      searchProgram [searchItem] ∧
    compile casesText = .ok casesSchema ∧
    compile searchText = .ok searchSchema ∧
    (∀ name ∈
        [
          "Person", "Window", "StrictWindow", "Envelope",
          "Header", "Empty", "Tree", "Grid"
        ],
      Agrees lib casesProgram casesSchema name) ∧
    ∀ name ∈
        ["SearchRequest", "Hit", "SearchResponse", "Ping"],
      Agrees lib searchProgram searchSchema name :=
  ⟨generates_cases, generates_search, compile_casesText,
    compile_searchText, fun _ h => agrees_cases lib h,
    fun _ h => agrees_search lib h⟩

end Sample

end TagWire
