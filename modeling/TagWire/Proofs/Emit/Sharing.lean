import TagWire.Proofs.Emit.Table

/-
  Generated codecs share their routines. Whatever is asked of
  a new table, and in which order: each type that needs it has
  one pair of routines under a name of its own, and nothing is
  called that the code of the table does not define.

  Main declarations:
    * `Emit.Request`
    * `Emit.perform`
    * `Emit.Needed`
    * `Emit.Shared`
    * `Emit.shared_perform`
-/

------------------------------------------------------------
-- Codecs
------------------------------------------------------------

namespace TagWire

namespace Emit

/- A run over a list is that of its head, then of the rest. -/
theorem run_mapM_cons
    {α β σ : Type}
    {f : α → StateM σ β}
    {a : α}
    {rest : List α}
    {b : β}
    {bs : List β}
    {t t' t'' : σ}
    (hHead : (f a).run t = (b, t'))
    (hRest : (rest.mapM f).run t' = (bs, t'')) :
    ((a :: rest).mapM f).run t = (b :: bs, t'') := by
  rw [List.mapM_cons, StateT.run_bind, hHead]
  change ((rest.mapM f) >>= fun bs => pure (b :: bs)).run t' = _
  rw [StateT.run_bind, hRest]
  rfl

namespace RoutineTable

/- A table that is between two requests about a schema. -/
structure Ready
    (s : ResolvedSchema)
    (t : RoutineTable) : Prop where
  sound : t.Sound
  complete : t.Complete s.Closed

variable {text : String}
variable {s : ResolvedSchema}
variable {t t' : RoutineTable}
variable {type : ResolvedType}

theorem ready_empty :
    empty.Ready s := by
  refine ⟨⟨.nil, .nil, ?_⟩, ?_⟩
  · intro ident hIdent
    cases hIdent
  · intro type _ hRecords
    cases hRecords

theorem Ready.complete_part
    (h : t.Ready s)
    (hType : s.Closed type) :
    t.Complete (TypeExpr.Part · type) :=
  fun inner hInner => h.complete inner (hType.part hInner)

/- A table is ready again after a type of the schema. -/
theorem Ready.grows
    (h : compile text = .ok s)
    (ht : t.Ready s)
    (hType : s.Closed type)
    (hGrows : Grows (Within type) t t') :
    t'.Ready s :=
  ⟨hGrows.sound,
    hGrows.complete h ht.complete
      (fun _ hInner => hType.part hInner.2)
      fun _ hMiddle _ hInner =>
        ⟨hInner.1, hInner.2.trans hMiddle.2⟩⟩

/- How a field is transferred, with the routines it needs. -/
def codecOfField
    (f : Field TypeRef) :
    StateM RoutineTable FieldCodec := do
  let transfer ← transferOf f.type
  return ⟨f, transfer⟩

/- The codecs of fields call recorded routines only. -/
theorem grows_codecOfFields
    (h : compile text = .ok s)
    {fields : List (Field TypeRef)}
    (hFields :
      ∀ f ∈ fields, s.Closed f.type ∧ IsWord f.name)
    (ht : t.Ready s) :
    ∃ codecs t',
      (fields.mapM codecOfField).run t = (codecs, t') ∧
      (∀ c ∈ codecs,
        c.Worded ∧
          ∀ callee ∈ c.transfer.calls, callee ∈ t'.idents) ∧
      t'.Ready s ∧
      Grows
        (fun inner => ∃ f ∈ fields, Within f.type inner)
        t t' := by
  induction fields generalizing t with
  | nil =>
      exact ⟨[], t, rfl, by simp, ht,
        .refl ht.sound (by simp)⟩
  | cons f rest ih =>
      rcases List.forall_mem_cons.mp hFields with
        ⟨⟨hType, hName⟩, hRest⟩
      rcases transfers_of_closed h hType ht.sound
          (ht.complete_part hType) with
        ⟨transfer, t₁, hRun, hWorded, hCalls, hGrows⟩
      rcases ih hRest (ht.grows h hType hGrows) with
        ⟨codecs, t₂, hRuns, hCodecs, hReady, hGrowsRest⟩
      refine ⟨⟨f, transfer⟩ :: codecs, t₂, ?_, ?_, hReady, ?_⟩
      · have hFirst :
            (codecOfField f).run t = (⟨f, transfer⟩, t₁) := by
          rw [codecOfField, StateT.run_bind, hRun]
          rfl
        exact run_mapM_cons hFirst hRuns
      · refine List.forall_mem_cons.mpr
          ⟨⟨⟨hName, hWorded⟩, fun callee hCallee => ?_⟩, hCodecs⟩
        exact hGrowsRest.mem_idents (hCalls callee hCallee)
      · exact (hGrows.trans hGrowsRest).congr fun inner =>
          (List.exists_mem_cons_iff
            (fun f => Within f.type inner) f rest).symm

/- So do the codecs of messages. -/
theorem grows_codecOf
    (h : compile text = .ok s)
    {m : Message TypeRef}
    (hm : m ∈ s.messages)
    (ht : t.Ready s) :
    ∃ c t',
      (codecOf m).run t = (c, t') ∧
      c.Worded ∧
      (∀ callee ∈ c.calls, callee ∈ t'.idents) ∧
      t'.Ready s ∧
      Grows
        (fun inner => ∃ f ∈ m.fields, Within f.type inner)
        t t' := by
  have hs := Schema.wellFormed_of_compile h
  have hFields :
      ∀ f ∈ m.fields, s.Closed f.type ∧ IsWord f.name :=
    fun f hf => ⟨hs.closed m hm f hf,
      isWord_of_isIdentifier
        (Schema.isIdentifier_of_compile h hm hf)⟩
  have hName :=
    (Schema.isWord_of_isTypeName (hs.messageTypeName m hm)).1
  rcases grows_codecOfFields h hFields ht with
    ⟨codecs, t', hRun, hCodecs, hReady, hGrows⟩
  refine ⟨⟨m.name, codecs⟩, t', ?_,
    ⟨hName, fun c hc => (hCodecs c hc).1⟩, ?_, hReady, hGrows⟩
  · change ((m.fields.mapM codecOfField) >>= fun fields =>
      pure (MessageCodec.mk m.name fields)).run t = _
    rw [StateT.run_bind, hRun]
    rfl
  · intro callee hCallee
    rcases List.mem_flatMap.mp hCallee with ⟨c, hc, hCall⟩
    exact (hCodecs c hc).2 callee hCall

end RoutineTable

end Emit

end TagWire

------------------------------------------------------------
-- Requests
------------------------------------------------------------

namespace TagWire

namespace Emit

/-
  What a table is asked for: the routines of a type, or the
  codec of a message.
-/
inductive Request where
| ensure (type : ResolvedType)
| codec (m : Message TypeRef)
deriving DecidableEq, Repr

/- What a request is answered with. -/
inductive Reply where
| ident (ident : String)
| codec (c : MessageCodec)
deriving DecidableEq, Repr

namespace Request

/- The answer to a request. -/
def answer : Request → StateM RoutineTable Reply
| ensure type => return .ident (← RoutineTable.ensure type)
| codec m => return .codec (← RoutineTable.codecOf m)

/- The types that a request is about. -/
def types : Request → List ResolvedType
| ensure type => [type]
| codec m => m.fields.map (·.type)

/-
  Requests about a schema are for lists, maps and messages of
  its types, and for the codecs of its messages.
-/
def About
    (s : ResolvedSchema) : Request → Prop
| ensure type => s.Closed type ∧ HasRoutine type
| codec m => m ∈ s.messages

end Request

/- The answers to some requests to a new table, and the table. -/
def perform
    (requests : List Request) :
    List Reply × RoutineTable :=
  (requests.mapM Request.answer).run RoutineTable.empty

/- The types with routines that occur in what is requested. -/
def Needed
    (requests : List Request)
    (inner : ResolvedType) : Prop :=
  ∃ r ∈ requests, ∃ type ∈ r.types, Within type inner

/-
  What an answer says of a table: the name is that of the
  type, and the codec calls recorded routines.
-/
def Kept
    (t : RoutineTable) : Request → Reply → Prop
| .ensure type, .ident ident =>
    t.recorded.lookup (ResolvedType.signature type) =
      some ident
| .codec _, .codec c =>
    c.Worded ∧ ∀ callee ∈ c.calls, callee ∈ t.idents
| _, _ => False

variable {text : String}
variable {s : ResolvedSchema}
variable {t t' : RoutineTable}

/- It stays true while the table grows. -/
theorem Kept.grows
    {needed : ResolvedType → Prop}
    (hGrows : t.Grows needed t')
    {request : Request}
    {reply : Reply}
    (h : Kept t request reply) :
    Kept t' request reply := by
  cases request with
  | ensure type =>
      cases reply with
      | ident ident => exact hGrows.lookup h
      | codec c => exact h
  | codec m =>
      cases reply with
      | ident ident => exact h
      | codec c =>
          exact ⟨h.1, fun callee hCallee =>
            hGrows.mem_idents (h.2 callee hCallee)⟩

/- One request leaves the table ready for the next one. -/
theorem grows_answer
    (h : compile text = .ok s)
    {request : Request}
    (hRequest : request.About s)
    (ht : t.Ready s) :
    ∃ reply t',
      request.answer.run t = (reply, t') ∧
      Kept t' request reply ∧
      t'.Ready s ∧
      t.Grows
        (fun inner => ∃ type ∈ request.types, Within type inner)
        t' := by
  cases request with
  | ensure type =>
      rcases RoutineTable.ensures_of_closed h hRequest.1
          hRequest.2 ht.sound
          (ht.complete_part hRequest.1) with
        ⟨ident, t', hRun, hLookup, hGrows⟩
      refine ⟨.ident ident, t', ?_, hLookup,
        ht.grows h hRequest.1 hGrows,
        hGrows.congr fun inner => ?_⟩
      · rw [Request.answer, StateT.run_bind, hRun]
        rfl
      · simp [Request.types]
  | codec m =>
      rcases RoutineTable.grows_codecOf h hRequest ht with
        ⟨c, t', hRun, hWorded, hCalls, hReady, hGrows⟩
      refine ⟨.codec c, t', ?_, ⟨hWorded, hCalls⟩, hReady,
        hGrows.congr fun inner => ?_⟩
      · rw [Request.answer, StateT.run_bind, hRun]
        rfl
      · simp [Request.types]

/- So do all requests, one after the other. -/
theorem grows_answers
    (h : compile text = .ok s)
    {requests : List Request}
    (hRequests : ∀ r ∈ requests, r.About s)
    (ht : t.Ready s) :
    ∃ replies t',
      (requests.mapM Request.answer).run t = (replies, t') ∧
      List.Forall₂ (Kept t') requests replies ∧
      t.Grows (Needed requests) t' := by
  induction requests generalizing t with
  | nil =>
      exact ⟨[], t, rfl, .nil, .refl ht.sound (by simp [Needed])⟩
  | cons request rest ih =>
      rcases List.forall_mem_cons.mp hRequests with
        ⟨hRequest, hRest⟩
      rcases grows_answer h hRequest ht with
        ⟨reply, t₁, hRun, hKept, hReady, hGrows⟩
      rcases ih hRest hReady with
        ⟨replies, t₂, hRuns, hKeptRest, hGrowsRest⟩
      refine ⟨reply :: replies, t₂, run_mapM_cons hRun hRuns,
        .cons (hKept.grows hGrowsRest) hKeptRest, ?_⟩
      exact (hGrows.trans hGrowsRest).congr fun inner =>
        (List.exists_mem_cons_iff
          (fun r => ∃ type ∈ r.types, Within type inner)
          request rest).symm

end Emit

end TagWire

------------------------------------------------------------
-- Sharing
------------------------------------------------------------

namespace TagWire

namespace Emit

/-
  An answer that still holds of a table: the name of a type is
  found again, with nothing new made, and the codec of a
  message calls what the code of the table defines.
-/
def Answered
    (t : RoutineTable) : Request → Reply → Prop
| .ensure type, .ident ident =>
    (RoutineTable.ensure type).run t = (ident, t)
| .codec _, .codec c =>
    ∀ name ∈ calls c.code, name ∈ definitions t.code
| _, _ => False

/-
  How a table shares its routines between requests. The types
  that need any are recorded, no other ones are, and each of
  them is told from the others by how it is written and by the
  name of its routines. A recorded type is found as it is. The
  code defines the two routines of each name, once, and calls
  none but those that it defines.
-/
structure Shared
    (requests : List Request)
    (replies : List Reply)
    (t : RoutineTable) : Prop where
  nodup : t.signatures.Nodup
  recorded :
    ∀ signature,
      signature ∈ t.signatures ↔
        ∃ type,
          Needed requests type ∧
            ResolvedType.signature type = signature
  apart :
    ∀ type type',
      Needed requests type → Needed requests type' →
        type ≠ type' →
          ResolvedType.signature type ≠
              ResolvedType.signature type' ∧
            t.recorded.lookup (ResolvedType.signature type) ≠
              t.recorded.lookup (ResolvedType.signature type')
  again :
    ∀ type,
      ResolvedType.signature type ∈ t.signatures →
        ∃ ident,
          t.recorded.lookup (ResolvedType.signature type) =
              some ident ∧
            (RoutineTable.ensure type).run t = (ident, t)
  answered : List.Forall₂ (Answered t) requests replies
  defined :
    (definitions t.code).Perm
      (t.idents.flatMap Transfer.namesOf)
  definedOnce : (definitions t.code).Nodup
  called : ∀ name ∈ calls t.code, name ∈ definitions t.code

/- Different names lead to different routines. -/
theorem nodup_namesOf
    {idents : List String}
    (h : idents.Nodup) :
    (idents.flatMap Transfer.namesOf).Nodup := by
  have hApart (ident ident' : String) :
      Transfer.writerName ident ≠ Transfer.readerName ident' := by
    intro hSame
    have hHead := congrArg (·.toList.head?) hSame
    simp [Transfer.writerName, Transfer.readerName] at hHead
  refine List.nodup_flatMap.mpr ⟨fun ident _ => ?_, ?_⟩
  · simp [Transfer.namesOf, hApart]
  · refine h.imp fun {ident ident'} hNe => ?_
    have hWriters :
        Transfer.writerName ident' ≠ Transfer.writerName ident :=
      fun hSame => hNe ((String.append_right_inj _).mp hSame).symm
    have hReaders :
        Transfer.readerName ident' ≠ Transfer.readerName ident :=
      fun hSame => hNe ((String.append_right_inj _).mp hSame).symm
    simp [Function.onFun, Transfer.namesOf, hWriters, hReaders,
      hApart, (hApart _ _).symm]

/- No two recorded types have the same name. -/
theorem eq_of_lookup_eq
    {t : RoutineTable}
    (hSound : t.Sound)
    {signature signature' ident : String}
    (h : t.recorded.lookup signature = some ident)
    (h' : t.recorded.lookup signature' = some ident) :
    signature = signature' := by
  have hSame :=
    List.inj_on_of_nodup_map hSound.idents
      (Keyed.mem_of_lookup h) (Keyed.mem_of_lookup h') rfl
  exact congrArg Prod.fst hSame

variable {text : String}
variable {s : ResolvedSchema}
variable {requests : List Request}

/- What is needed for a schema is made of its declarations. -/
theorem Needed.closed
    (h : compile text = .ok s)
    (hRequests : ∀ r ∈ requests, r.About s)
    {type : ResolvedType}
    (hNeeded : Needed requests type) :
    s.Closed type := by
  rcases hNeeded with ⟨r, hr, type', hType', hWithin⟩
  suffices hClosed : s.Closed type' from hClosed.part hWithin.2
  have hAbout := hRequests r hr
  cases r with
  | ensure type =>
      obtain rfl := List.mem_singleton.mp hType'
      exact hAbout.1
  | codec m =>
      rcases List.mem_map.mp hType' with ⟨f, hf, rfl⟩
      exact (Schema.wellFormed_of_compile h).closed m hAbout f hf

/- Whatever is requested for a schema shares its routines. -/
theorem shared_perform
    (h : compile text = .ok s)
    (hRequests : ∀ r ∈ requests, r.About s) :
    Shared requests (perform requests).1
      (perform requests).2 := by
  rcases grows_answers h hRequests RoutineTable.ready_empty with
    ⟨replies, t, hRun, hKept, hGrows⟩
  rcases hGrows.routines with
    ⟨added, made, hRecorded, hRoutines, hPerm, hMade⟩
  obtain rfl : t.recorded = added := hRecorded
  obtain rfl : t.routines = made := hRoutines
  rw [perform, hRun]
  dsimp only
  have hDefined :
      (definitions t.code).Perm
        (t.idents.flatMap Transfer.namesOf) := by
    rw [RoutineTable.definitions_code fun r hr => (hMade r hr).1]
    have hNames := hPerm.flatMap_right Transfer.namesOf
    rwa [List.flatMap_map] at hNames
  have hSignatures :
      ∀ signature,
        signature ∈ t.signatures ↔
          ∃ type,
            Needed requests type ∧
              ResolvedType.signature type = signature := by
    intro signature
    refine (hGrows.signatures signature).trans ?_
    exact or_iff_right List.not_mem_nil
  have hAgain :
      ∀ type,
        t.Records type →
          ∃ ident,
            t.recorded.lookup (ResolvedType.signature type) =
                some ident ∧
              (RoutineTable.ensure type).run t = (ident, t) := by
    intro type hRecords
    rcases hRecords.exists_lookup hGrows.sound with
      ⟨ident, hLookup⟩
    exact ⟨ident, hLookup,
      RoutineTable.run_ensure_of_lookup hLookup⟩
  have hCallee :
      ∀ callee ∈ t.idents, ∀ name ∈ Transfer.namesOf callee,
        name ∈ definitions t.code :=
    fun callee hIdent name hName =>
      hDefined.mem_iff.mpr
        (List.mem_flatMap.mpr ⟨callee, hIdent, hName⟩)
  refine ⟨hGrows.sound.signatures, hSignatures, ?_, hAgain, ?_,
    hDefined, hDefined.nodup_iff.mpr
      (nodup_namesOf hGrows.sound.idents), ?_⟩
  · intro type type' hType hType' hNe
    have hSignature :
        ResolvedType.signature type ≠
          ResolvedType.signature type' :=
      fun hSame => hNe
        (Schema.eq_of_signature_eq h (hType.closed h hRequests)
          (hType'.closed h hRequests) hSame)
    refine ⟨hSignature, fun hSame => hSignature ?_⟩
    rcases hAgain type (hGrows.records_needed hType) with
      ⟨ident, hLookup, _⟩
    exact eq_of_lookup_eq hGrows.sound hLookup (hSame ▸ hLookup)
  · refine hKept.imp fun request reply hKept => ?_
    cases request with
    | ensure type =>
        cases reply with
        | ident ident =>
            exact RoutineTable.run_ensure_of_lookup hKept
        | codec c => exact hKept
    | codec m =>
        cases reply with
        | ident ident => exact hKept
        | codec c =>
            intro name hName
            rcases (MessageCodec.mem_calls_code hKept.1).mp
                hName with
              ⟨callee, hCall, hNames⟩
            exact hCallee callee (hKept.2 callee hCall) name
              hNames
  · intro name hName
    rcases (RoutineTable.mem_calls_code
        fun r hr => (hMade r hr).1).mp hName with
      ⟨r, hr, callee, hCall, hNames⟩
    exact hCallee callee ((hMade r hr).2 callee hCall) name hNames

/- The codec of the answer to a search, and a type in it. -/
def searchRequests : List Request :=
  [
    .codec Sample.SearchResponse.declaration,
    .ensure
      (.map .string (.list (.scalar (.num (.int .int32)))))
  ]

theorem shared_perform_search :
    compile Sample.searchText = .ok Sample.searchSchema ∧
    (∀ r ∈ searchRequests, r.About Sample.searchSchema) ∧
    (perform searchRequests).2.recorded =
      [
        ("list[Hit]", "list_hit"),
        ("Hit", "hit"),
        ("map[string]list[int32]", "map_string_list_int32"),
        ("list[int32]", "list_int32"),
        ("SearchRequest", "search_request")
      ] ∧
    Shared searchRequests (perform searchRequests).1
      (perform searchRequests).2 := by
  have hCompile := Sample.compile_searchText
  have hRequests :
      ∀ r ∈ searchRequests, r.About Sample.searchSchema := by
    refine List.forall_mem_cons.mpr ⟨?_, ?_⟩
    · exact List.mem_of_getElem? (i := 2) rfl
    · rw [List.forall_mem_singleton]
      exact ⟨⟨rfl, trivial⟩, trivial⟩
  exact ⟨hCompile, hRequests, by decide +kernel,
    shared_perform hCompile hRequests⟩

end Emit

end TagWire
