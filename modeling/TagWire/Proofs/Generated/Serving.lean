import TagWire.Proofs.Generated.Correspondence

/-
  The program that is generated from a schema serves it: the
  routines behind its messages are those of the types of their
  fields, however the types are shared. Only the generated
  names have to be told apart, as the compiler demands.

  Main declarations:
    * `Generated.CarriedBy`
    * `Generated.Extends`
    * `Generated.NamesApart`
    * `Generated.serves_ofSchema`
-/

------------------------------------------------------------
-- Routines of Types
------------------------------------------------------------

namespace TagWire

namespace Generated

open Emit

/- A transfer is that of a type, by the routines of a list. -/
inductive CarriedBy
    (rs : List Routine) :
    ResolvedType → Transfer → Prop
| scalar
    {kind : ScalarKind} :
    CarriedBy rs (.scalar kind) (.scalar kind)
| enum
    {name : String} :
    CarriedBy rs (.named (.enum name)) (.enum name)
| list
    {element : ResolvedType}
    {ident : String}
    {transfer : Transfer}
    (hRoutine : ⟨ident, .list element transfer⟩ ∈ rs)
    (hElement : CarriedBy rs element transfer) :
    CarriedBy rs (.list element) (.routine ident)
| map
    {key : ScalarKind}
    {value : ResolvedType}
    {ident : String}
    {transfer : Transfer}
    (hRoutine : ⟨ident, .map key value transfer⟩ ∈ rs)
    (hValue : CarriedBy rs value transfer) :
    CarriedBy rs (.map key value) (.routine ident)
| message
    {name ident : String}
    (hRoutine : ⟨ident, .message name⟩ ∈ rs) :
    CarriedBy rs (.named (.message name)) (.routine ident)

/- More routines carry no less. -/
theorem CarriedBy.mono
    {rs rs' : List Routine}
    {type : ResolvedType}
    {transfer : Transfer}
    (h : CarriedBy rs type transfer)
    (hSubset : rs ⊆ rs') :
    CarriedBy rs' type transfer := by
  induction h with
  | scalar => exact .scalar
  | enum => exact .enum
  | list hRoutine _ ih => exact .list (hSubset hRoutine) ih
  | map hRoutine _ ih => exact .map (hSubset hRoutine) ih
  | message hRoutine => exact .message (hSubset hRoutine)

theorem ident_routineItem
    (r : Routine) :
    (routineItem r).ident = r.ident := by
  rcases r with ⟨ident, _ | _ | _⟩ <;> rfl

/- Routines are found by their names if these are distinct. -/
theorem routine?_of_mem
    {p : Program}
    {rs : List Routine}
    (hRoutines : p.routines = rs.map routineItem)
    (hIdents : (rs.map Routine.ident).Nodup)
    {r : Routine}
    (hr : r ∈ rs) :
    p.routine? r.ident = some (routineItem r) := by
  have hItems :
      ((rs.map routineItem).map RoutineItem.ident).Nodup := by
    rw [List.map_map]
    have hSame :
        RoutineItem.ident ∘ routineItem = Routine.ident :=
      funext ident_routineItem
    rwa [hSame]
  have hFind :=
    Schema.find?_of_nodup hItems (List.mem_map_of_mem hr)
  rw [ident_routineItem] at hFind
  rwa [Program.routine?, hRoutines]

theorem CarriedBy.carries
    {p : Program}
    {rs : List Routine}
    {type : ResolvedType}
    {transfer : Transfer}
    (h : CarriedBy rs type transfer)
    (hRoutines : p.routines = rs.map routineItem)
    (hIdents : (rs.map Routine.ident).Nodup) :
    Carries p type transfer := by
  induction h with
  | scalar => exact .scalar
  | enum => exact .enum
  | list hRoutine _ ih =>
      exact .list (routine?_of_mem hRoutines hIdents hRoutine) ih
  | map hRoutine _ ih =>
      exact .map (routine?_of_mem hRoutines hIdents hRoutine) ih
  | message hRoutine =>
      exact .message
        (routine?_of_mem hRoutines hIdents hRoutine)

end Generated

end TagWire

------------------------------------------------------------
-- Routines That Are Made
------------------------------------------------------------

namespace TagWire

namespace Generated

open Emit RoutineTable

variable {text : String}
variable {s : ResolvedSchema}
variable {t t' t'' : RoutineTable}
variable {type : ResolvedType}

/- What a type is recorded as in a table carries the type. -/
def CarriesType
    (t : RoutineTable)
    (type : ResolvedType) : Prop :=
  ∀ ident,
    t.recorded.lookup (ResolvedType.signature type) =
        some ident →
      CarriedBy t.routines type (.routine ident)

/-
  A table is extended by routines, and whatever is recorded
  besides what was carries its type.
-/
structure Extends
    (s : ResolvedSchema)
    (t t' : RoutineTable) : Prop where
  routines : t.routines ⊆ t'.routines
  carries :
    ∀ type, s.Closed type → HasRoutine type → ∀ ident,
      t'.recorded.lookup (ResolvedType.signature type) =
          some ident →
        t.recorded.lookup (ResolvedType.signature type) =
            some ident ∨
          CarriedBy t'.routines type (.routine ident)

theorem Extends.refl
    (t : RoutineTable) :
    Extends s t t where
  routines := List.Subset.refl _
  carries _ _ _ _ h := .inl h

theorem Extends.trans
    (h : Extends s t t')
    (h' : Extends s t' t'') :
    Extends s t t'' where
  routines := List.Subset.trans h.routines h'.routines
  carries type hClosed hRoutine ident hLookup := by
    rcases h'.carries type hClosed hRoutine ident hLookup with
      hOld | hNew
    · refine (h.carries type hClosed hRoutine ident hOld).imp
        id fun hCarried => ?_
      exact hCarried.mono h'.routines
    · exact .inr hNew

/- What is carried by the old routines is by all. -/
theorem Extends.carriesType
    (h : Extends s t t')
    (hClosed : s.Closed type)
    (hRoutine : HasRoutine type)
    (hType : CarriesType t type) :
    CarriesType t' type := by
  intro ident hLookup
  rcases h.carries type hClosed hRoutine ident hLookup with
    hOld | hNew
  · exact (hType ident hOld).mono h.routines
  · exact hNew

/- All types that are recorded are carried. -/
def AllCarried
    (s : ResolvedSchema)
    (t : RoutineTable) : Prop :=
  ∀ type, s.Closed type → HasRoutine type → CarriesType t type

theorem allCarried_empty :
    AllCarried s RoutineTable.empty := by
  intro type _ _ ident hLookup
  cases hLookup

theorem AllCarried.extends
    (h : AllCarried s t)
    (hExtends : Extends s t t') :
    AllCarried s t' :=
  fun type hClosed hRoutine =>
    hExtends.carriesType hClosed hRoutine
      (h type hClosed hRoutine)

/-
  A type with routines has them made, or has them already.
  Types inside it are the only others that matter.
-/
def Made
    (s : ResolvedSchema)
    (type : ResolvedType)
    (t : RoutineTable) : Prop :=
  ∃ ident t',
    (ensure type).run t = (ident, t') ∧
      CarriedBy t'.routines type (.routine ident) ∧
        Extends s t t'

/- A value of a type is transferred as the type is carried. -/
def Transferred
    (s : ResolvedSchema)
    (type : ResolvedType)
    (t : RoutineTable) : Prop :=
  ∃ transfer t',
    (transferOf type).run t = (transfer, t') ∧
      CarriedBy t'.routines type transfer ∧ Extends s t t'

theorem transferred_of_made
    (h : HasRoutine type → Made s type t) :
    Transferred s type t := by
  have hMade
      (hRoutine : HasRoutine type)
      (hRun :
        transferOf type = return .routine (← ensure type)) :
      Transferred s type t := by
    rcases h hRoutine with
      ⟨ident, t', hEnsure, hCarried, hExtends⟩
    refine ⟨.routine ident, t', ?_, hCarried, hExtends⟩
    rw [hRun, StateT.run_bind, hEnsure]
    rfl
  rcases type with kind | (name | name) | element | ⟨key, value⟩
  · exact ⟨.scalar kind, t, rfl, .scalar, .refl t⟩
  · exact ⟨.enum name, t, rfl, .enum, .refl t⟩
  · exact hMade trivial rfl
  · exact hMade trivial rfl
  · exact hMade trivial rfl

/- Recording a type adds one to what is recorded. -/
theorem lookup_record_eq
    {signature ident other found : String}
    (h :
      (record signature ident t).recorded.lookup other =
        some found) :
    t.recorded.lookup other = some found ∨
      other = signature ∧ found = ident := by
  rw [record, List.lookup_append] at h
  cases hOld : t.recorded.lookup other with
  | some found' =>
      rw [hOld] at h
      exact .inl h
  | none =>
      rw [hOld, Option.none_or, List.lookup_cons] at h
      cases hSame : other == signature with
      | true =>
          rw [hSame] at h
          exact .inr ⟨eq_of_beq hSame, (Option.some.inj h).symm⟩
      | false =>
          rw [hSame] at h
          cases h

/-
  A type that is not recorded is recorded first. Then its
  routines are made, in a table that has grown by then.
-/
theorem made_of_make
    {make : String → StateM RoutineTable (List Routine)}
    (h : compile text = .ok s)
    (hClosed : s.Closed type)
    (hEnsure : ensure type = ensureWith type make)
    (hType : CarriesType t type)
    (hMake :
      t.recorded.lookup (ResolvedType.signature type) = none →
        ∃ r t',
          (make (t.nextIdent type)).run
              (record (ResolvedType.signature type)
                (t.nextIdent type) t) =
            ([r], t') ∧
          Extends s
            (record (ResolvedType.signature type)
              (t.nextIdent type) t) t' ∧
          CarriedBy (t'.routines ++ [r]) type
            (.routine (t.nextIdent type))) :
    Made s type t := by
  cases hLookup :
      t.recorded.lookup (ResolvedType.signature type) with
  | some ident =>
      exact ⟨ident, t, run_ensure_of_lookup hLookup,
        hType ident hLookup, .refl t⟩
  | none =>
      rcases hMake hLookup with
        ⟨r, t', hRun, hExtends, hCarried⟩
      refine ⟨t.nextIdent type, add [r] t', ?_, hCarried,
        ?_, ?_⟩
      · rw [hEnsure]
        exact run_ensureWith_of_new hLookup hRun
      · exact List.Subset.trans hExtends.routines
          (List.subset_append_left _ _)
      · intro other hOther hRoutine ident hFound
        rcases hExtends.carries other hOther hRoutine ident
            hFound with
          hOld | hNew
        · rcases lookup_record_eq hOld with
            hOld | ⟨hSame, rfl⟩
          · exact .inl hOld
          · obtain rfl :=
              Schema.eq_of_signature_eq h hOther hClosed hSame
            exact .inr hCarried
        · exact .inr
            (hNew.mono (List.subset_append_left _ _))

/- The routines of a container are made from its elements'. -/
theorem made_container
    (h : compile text = .ok s)
    {element : ResolvedType}
    {body : Transfer → RoutineBody}
    (hHolds : Holds element type body)
    (hClosed : s.Closed type)
    (hTransferred :
      ∀ t : RoutineTable,
        (∀ inner, TypeExpr.Part inner element →
          HasRoutine inner → CarriesType t inner) →
          Transferred s element t)
    (hParts :
      ∀ inner, TypeExpr.Part inner type →
        HasRoutine inner → CarriesType t inner) :
    Made s type t := by
  have hRoutine : HasRoutine type := by
    cases hHolds with
    | list => trivial
    | map key => trivial
  refine made_of_make h hClosed hHolds.ensure_eq
    (hParts type .refl hRoutine) fun _ => ?_
  have hBelow :
      ∀ inner, TypeExpr.Part inner element →
        HasRoutine inner →
          CarriesType
            (record (ResolvedType.signature type)
              (t.nextIdent type) t) inner := by
    intro inner hInner hHas ident hLookup
    have hWithin := hInner.trans hHolds.part
    rcases lookup_record_eq hLookup with hOld | ⟨hSame, _⟩
    · exact hParts inner hWithin hHas ident hOld
    · have hEq :=
        Schema.eq_of_signature_eq h (hClosed.part hWithin)
          hClosed hSame
      exact absurd (hEq ▸ hInner) hHolds.not_part
  rcases hTransferred _ hBelow with
    ⟨transfer, t', hRun, hCarried, hExtends⟩
  refine ⟨⟨t.nextIdent type, body transfer⟩, t', ?_, hExtends,
    ?_⟩
  · rw [StateT.run_bind, hRun]
    rfl
  · have hAll :=
      hCarried.mono
        (List.subset_append_left t'.routines
          [⟨t.nextIdent type, body transfer⟩])
    cases hHolds with
    | list => exact .list (by simp) hAll
    | map key => exact .map (by simp) hAll

/- Every type of a schema with routines has them made. -/
theorem made_of_closed
    (h : compile text = .ok s)
    (hClosed : s.Closed type)
    (hRoutine : HasRoutine type)
    (hParts :
      ∀ inner, TypeExpr.Part inner type →
        HasRoutine inner → CarriesType t inner) :
    Made s type t := by
  induction type generalizing t with
  | scalar kind => exact absurd hRoutine id
  | named r =>
      cases r with
      | enum name => exact absurd hRoutine id
      | message name =>
          refine made_of_make h hClosed rfl
            (hParts _ .refl trivial) fun _ => ?_
          exact ⟨⟨_, .message name⟩, _, rfl, .refl _,
            .message (by simp)⟩
  | list element ih =>
      refine made_container h .list hClosed ?_ hParts
      intro t hBelow
      exact transferred_of_made
        fun hHas => ih hClosed hHas hBelow
  | map key value ih =>
      refine made_container h (.map key) hClosed ?_ hParts
      intro t hBelow
      exact transferred_of_made
        fun hHas => ih hClosed.2 hHas hBelow

/- So has every type of a field, whatever was made before. -/
theorem transferred_of_closed
    (h : compile text = .ok s)
    (hClosed : s.Closed type)
    (hCarried : AllCarried s t) :
    Transferred s type t :=
  transferred_of_made fun hRoutine =>
    made_of_closed h hClosed hRoutine fun inner hInner hHas =>
      hCarried inner (hClosed.part hInner) hHas

end Generated

end TagWire

------------------------------------------------------------
-- Codecs of Messages
------------------------------------------------------------

namespace TagWire

namespace Generated

open Emit RoutineTable

variable {text : String}
variable {s : ResolvedSchema}
variable {t : RoutineTable}

/- The codec of a message has its fields, each one carried. -/
structure IsCodec
    (rs : List Routine)
    (m : Message TypeRef)
    (c : MessageCodec) : Prop where
  fields : c.fields.map FieldCodec.field = m.fields
  carried :
    ∀ fc ∈ c.fields, CarriedBy rs fc.field.type fc.transfer

theorem IsCodec.mono
    {rs rs' : List Routine}
    {m : Message TypeRef}
    {c : MessageCodec}
    (h : IsCodec rs m c)
    (hSubset : rs ⊆ rs') :
    IsCodec rs' m c where
  fields := h.fields
  carried fc hfc := (h.carried fc hfc).mono hSubset

theorem run_codecOfFields
    (h : compile text = .ok s)
    {fields : List (Field TypeRef)}
    (hFields : ∀ f ∈ fields, s.Closed f.type)
    (hCarried : AllCarried s t) :
    ∃ codecs t',
      (fields.mapM codecOfField).run t = (codecs, t') ∧
      codecs.map FieldCodec.field = fields ∧
      (∀ fc ∈ codecs,
        CarriedBy t'.routines fc.field.type fc.transfer) ∧
      Extends s t t' := by
  induction fields generalizing t with
  | nil => exact ⟨[], t, rfl, rfl, by simp, .refl t⟩
  | cons f rest ih =>
      rcases List.forall_mem_cons.mp hFields with
        ⟨hType, hRest⟩
      rcases transferred_of_closed h hType hCarried with
        ⟨transfer, t₁, hRun, hFirst, hExtends⟩
      rcases ih hRest (hCarried.extends hExtends) with
        ⟨codecs, t₂, hRuns, hSame, hOthers, hMore⟩
      have hHead :
          (codecOfField f).run t = (⟨f, transfer⟩, t₁) := by
        rw [codecOfField, StateT.run_bind, hRun]
        rfl
      refine ⟨⟨f, transfer⟩ :: codecs, t₂,
        run_mapM_cons hHead hRuns, ?_, ?_, hExtends.trans hMore⟩
      · rw [List.map_cons, hSame]
      · exact List.forall_mem_cons.mpr
          ⟨hFirst.mono hMore.routines, hOthers⟩

theorem run_codecOf
    (h : compile text = .ok s)
    {m : Message TypeRef}
    (hm : m ∈ s.messages)
    (hCarried : AllCarried s t) :
    ∃ c t',
      (codecOf m).run t = (c, t') ∧
        IsCodec t'.routines m c ∧ Extends s t t' := by
  have hs := Schema.wellFormed_of_compile h
  rcases run_codecOfFields h (hs.closed m hm) hCarried with
    ⟨codecs, t', hRun, hFields, hCodecs, hExtends⟩
  refine ⟨⟨m.name, codecs⟩, t', ?_, ⟨hFields, hCodecs⟩,
    hExtends⟩
  change ((m.fields.mapM codecOfField) >>= fun fields =>
    pure (MessageCodec.mk m.name fields)).run t = _
  rw [StateT.run_bind, hRun]
  rfl

/- Messages are generated one after the other. -/
theorem run_messageItems
    (h : compile text = .ok s)
    {ms : List (Message TypeRef)}
    (hms : ∀ m ∈ ms, m ∈ s.messages)
    (hCarried : AllCarried s t) :
    ∃ items t',
      (ms.mapM (messageItem .binary)).run t = (items, t') ∧
      List.Forall₂
        (fun m item =>
          ∃ c, IsCodec t'.routines m c ∧
            item = binaryMessage m c)
        ms items ∧
      Extends s t t' := by
  induction ms generalizing t with
  | nil => exact ⟨[], t, rfl, .nil, .refl t⟩
  | cons m rest ih =>
      rcases List.forall_mem_cons.mp hms with ⟨hm, hRest⟩
      rcases run_codecOf h hm hCarried with
        ⟨c, t₁, hRun, hCodec, hExtends⟩
      rcases ih hRest (hCarried.extends hExtends) with
        ⟨items, t₂, hRuns, hItems, hMore⟩
      have hHead :
          (messageItem .binary m).run t =
            (binaryMessage m c, t₁) :=
        congrArg (Prod.map (binaryMessage m) id) hRun
      exact
        ⟨binaryMessage m c :: items, t₂,
          run_mapM_cons hHead hRuns,
          .cons ⟨c, hCodec.mono hMore.routines, rfl⟩ hItems,
          hExtends.trans hMore⟩

end Generated

end TagWire

------------------------------------------------------------
-- Programs
------------------------------------------------------------

namespace TagWire

namespace Generated

open Emit RoutineTable

variable {text : String}
variable {s : ResolvedSchema}

/-
  The names that are generated for a schema tell its parts
  apart, as the compiler demands: types from one another, the
  variants of an enum, and the fields of a message. Variants
  are numbered with four bytes.
-/
structure NamesApart
    (s : ResolvedSchema) : Prop where
  types :
    ((s.enums.map fun e => Names.typeIdent e.name) ++
      s.messages.map fun m => Names.typeIdent m.name).Nodup
  variants :
    ∀ e ∈ s.enums, (e.variants.map Names.typeIdent).Nodup
  variantsFit : ∀ e ∈ s.enums, e.variants.length ≤ 2 ^ 32
  fields :
    ∀ m ∈ s.messages,
      (m.fields.map fun f => Names.fieldIdent f.name).Nodup

theorem namesApart_iff
    (s : ResolvedSchema) :
    NamesApart s ↔
      ((s.enums.map fun e => Names.typeIdent e.name) ++
        s.messages.map fun m =>
          Names.typeIdent m.name).Nodup ∧
      (∀ e ∈ s.enums, (e.variants.map Names.typeIdent).Nodup) ∧
      (∀ e ∈ s.enums, e.variants.length ≤ 2 ^ 32) ∧
      ∀ m ∈ s.messages,
        (m.fields.map fun f => Names.fieldIdent f.name).Nodup :=
  ⟨fun h => ⟨h.types, h.variants, h.variantsFit, h.fields⟩,
    fun ⟨hTypes, hVariants, hFit, hFields⟩ =>
      ⟨hTypes, hVariants, hFit, hFields⟩⟩

instance
    (s : ResolvedSchema) :
    Decidable (NamesApart s) :=
  decidable_of_iff _ (namesApart_iff s).symm

theorem ident_enumItem
    (e : EnumDecl) :
    (enumItem .binary e).ident = Names.typeIdent e.name := by
  unfold enumItem
  split <;> rfl

theorem ident_binaryMessage
    (m : Message TypeRef)
    (c : MessageCodec) :
    (binaryMessage m c).data.ident =
      Names.typeIdent m.name := by
  unfold binaryMessage
  split <;> rfl

/- Items stand for messages, under the names of these. -/
theorem idents_items
    {rs : List Routine}
    {ms : List (Message TypeRef)}
    {items : List MessageItem}
    (h :
      List.Forall₂
        (fun m item =>
          ∃ c, IsCodec rs m c ∧ item = binaryMessage m c)
        ms items) :
    items.map (fun item => item.data.ident) =
      ms.map fun m => Names.typeIdent m.name := by
  induction h with
  | nil => rfl
  | cons hHead _ ih =>
      rcases hHead with ⟨c, _, rfl⟩
      rw [List.map_cons, List.map_cons, ih,
        ident_binaryMessage]

/- Each message has its item. -/
theorem exists_item
    {rs : List Routine}
    {ms : List (Message TypeRef)}
    {items : List MessageItem}
    (h :
      List.Forall₂
        (fun m item =>
          ∃ c, IsCodec rs m c ∧ item = binaryMessage m c)
        ms items)
    {m : Message TypeRef}
    (hm : m ∈ ms) :
    ∃ c, IsCodec rs m c ∧ binaryMessage m c ∈ items := by
  induction h with
  | nil => cases hm
  | cons hHead _ ih =>
      rcases List.mem_cons.mp hm with rfl | hm
      · rcases hHead with ⟨c, hCodec, rfl⟩
        exact ⟨c, hCodec, List.mem_cons_self⟩
      · rcases ih hm with ⟨c, hCodec, hMem⟩
        exact ⟨c, hCodec, List.mem_cons_of_mem _ hMem⟩

/- The generated program serves its schema. -/
theorem serves_ofSchema
    (h : compile text = .ok s)
    (hNames : NamesApart s) :
    Serves (Program.ofSchema .binary s) s := by
  rcases run_messageItems h (fun _ hm => hm) allCarried_empty
    with ⟨items, t, hRun, hItems, _⟩
  have hReady :=
    ready_messageItems h .binary (fun _ hm => hm)
      ready_empty .nil
  rw [hRun] at hReady
  have hRoutines : (t.routines.map Routine.ident).Nodup :=
    hReady.2.nodup_iff.mpr hReady.1.sound.idents
  have hProgram :
      Program.ofSchema .binary s =
        ⟨s.enums.map (enumItem .binary), items,
          t.routines.map routineItem⟩ := by
    rw [Program.ofSchema, hRun]
  rcases List.nodup_append.mp hNames.types with
    ⟨hEnums, hMessages, hApart⟩
  have hEnumItems :
      ((s.enums.map (enumItem .binary)).map
        EnumItem.ident).Nodup := by
    rw [List.map_map]
    have hSame :
        EnumItem.ident ∘ enumItem .binary =
          fun e => Names.typeIdent e.name :=
      funext ident_enumItem
    rwa [hSame]
  have hMessageItems :
      (items.map fun item => item.data.ident).Nodup := by
    rwa [idents_items hItems]
  rw [hProgram]
  refine ⟨?_, hNames.variants, hNames.variantsFit, ?_,
    hNames.fields, ?_, ?_⟩
  · intro e he
    have hFind :=
      Schema.find?_of_nodup hEnumItems (List.mem_map_of_mem he)
    rwa [ident_enumItem] at hFind
  · intro m hm
    rcases exists_item hItems hm with ⟨c, hCodec, hMem⟩
    have hFind := Schema.find?_of_nodup hMessageItems hMem
    rw [ident_binaryMessage] at hFind
    exact
      ⟨c, hFind, hCodec.fields, fun fc hfc =>
        (hCodec.carried fc hfc).carries rfl hRoutines⟩
  · intro m hm
    refine List.find?_eq_none.mpr fun item hItem hSame => ?_
    rcases List.mem_map.mp hItem with ⟨e, he, rfl⟩
    rw [ident_enumItem] at hSame
    exact hApart _ (List.mem_map_of_mem he) _
      (List.mem_map_of_mem hm) (eq_of_beq hSame)
  · intro e he
    refine List.find?_eq_none.mpr fun item hItem hSame => ?_
    have hMem :
        item.data.ident ∈
          s.messages.map fun m => Names.typeIdent m.name := by
      rw [← idents_items hItems]
      exact List.mem_map_of_mem hItem
    exact hApart _ (List.mem_map_of_mem he) _ hMem
      (eq_of_beq hSame).symm

end Generated

end TagWire
