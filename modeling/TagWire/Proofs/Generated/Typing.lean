import TagWire.Proofs.Generated.Presence

/-
  The data of a generated type is that of the values that can
  be held by it, and of no others.

  Main declarations:
    * `Generated.Stands`
    * `Generated.Serves.hasType_of_held`
    * `Generated.Serves.hasType_message_iff`
-/

------------------------------------------------------------
-- Values of Fields
------------------------------------------------------------

namespace TagWire

namespace Generated

open Emit

variable {p : Program}
variable {s : ResolvedSchema}

/-
  Data of a type is that of a value: of any type of values
  that is generated as this one, where it is not absent.
-/
def Stands
    (s : ResolvedSchema) :
    CodeType → Datum → Prop
| .option inner, d =>
    d = .absent ∨ ∃ d', d = .present d' ∧ Stands s inner d'
| .boxed inner, d => Stands s inner d
| t, d =>
    ∀ type, s.Closed type → elementCodeType type = t →
      ∃ v, Held s type v ∧ datum s v = d

/- The type of elements is never one that may be absent. -/
theorem stands_element
    {type : ResolvedType}
    {d : Datum}
    (hClosed : s.Closed type)
    (h : Stands s (elementCodeType type) d) :
    ∃ v, Held s type v ∧ datum s v = d := by
  match type with
  | .scalar (.num kind) => exact h _ hClosed rfl
  | .scalar .string => exact h _ hClosed rfl
  | .named reference => exact h _ hClosed rfl
  | .list element => exact h _ hClosed rfl
  | .map key value => exact h _ hClosed rfl

/- The data of a field is that of a value, or of none. -/
theorem exists_fieldDatum
    {type : ResolvedType}
    {d : Datum}
    (hClosed : s.Closed type)
    (h : Stands s (fieldCodeType type) d) :
    ∃ v? : Option Value,
      (∀ v, v? = some v → Held s type v) ∧
        fieldDatum s type (v?.map (datum s)) = d := by
  have hSome (v : Value) (hHeld : Held s type v) :
      ∀ v', some v = some v' → Held s type v' := by
    rintro _ ⟨⟩
    exact hHeld
  match type, h with
  | .named (.message name), h =>
      rcases h with rfl | ⟨d', rfl, hInner⟩
      · exact ⟨none, by simp, rfl⟩
      · rcases stands_element hClosed hInner with
          ⟨v, hHeld, rfl⟩
        exact ⟨some v, hSome v hHeld, rfl⟩
  | .named (.enum name), h =>
      rcases stands_element hClosed h with ⟨v, hHeld, rfl⟩
      exact ⟨some v, hSome v hHeld, rfl⟩
  | .scalar kind, h =>
      rcases stands_element hClosed h with ⟨v, hHeld, rfl⟩
      exact ⟨some v, hSome v hHeld, rfl⟩
  | .list element, h =>
      rcases stands_element hClosed h with ⟨v, hHeld, rfl⟩
      exact ⟨some v, hSome v hHeld, rfl⟩
  | .map key value, h =>
      rcases stands_element hClosed h with ⟨v, hHeld, rfl⟩
      exact ⟨some v, hSome v hHeld, rfl⟩

/- Fields are found together if each one is. -/
theorem exists_fields
    {declared : List (Field TypeRef)}
    (hNames : (declared.map Field.name).Nodup)
    {Q : Field TypeRef → Option Value → Prop}
    (h : ∀ f ∈ declared, ∃ v?, Q f v?) :
    ∃ fields : List (String × Value),
      Keyed.Ascending fields ∧
        (∀ e ∈ fields, e.1 ∈ declared.map Field.name) ∧
          ∀ f ∈ declared, Q f (fields.lookup f.name) := by
  induction declared with
  | nil => exact ⟨[], .nil, by simp, by simp⟩
  | cons f rest ih =>
      rcases List.nodup_cons.mp hNames with ⟨hNew, hRest⟩
      rcases List.forall_mem_cons.mp h with
        ⟨⟨v?, hFirst⟩, hOthers⟩
      rcases ih hRest hOthers with
        ⟨fields, hAscending, hDeclared, hFound⟩
      cases v? with
      | none =>
          have hNone : fields.lookup f.name = none := by
            refine Keyed.lookup_eq_none_of_not_mem ?_
            intro hMem
            rcases List.mem_map.mp hMem with ⟨e, he, hName⟩
            exact hNew (hName ▸ hDeclared e he)
          refine ⟨fields, hAscending, ?_, ?_⟩
          · intro e he
            exact List.mem_cons_of_mem _ (hDeclared e he)
          · refine List.forall_mem_cons.mpr ⟨?_, hFound⟩
            rwa [hNone]
      | some v =>
          refine ⟨Keyed.insert f.name v fields,
            Keyed.ascending_insert hAscending, ?_, ?_⟩
          · intro e he
            have hKey :=
              Keyed.mem_keys_insert
                (List.mem_map_of_mem (f := Prod.fst) he)
            rcases hKey with hKey | hKey
            · rw [hKey]
              exact List.mem_cons_self
            · rcases List.mem_map.mp hKey with ⟨e', he', hSame⟩
              rw [← hSame]
              exact List.mem_cons_of_mem _ (hDeclared e' he')
          · refine List.forall_mem_cons.mpr ⟨?_, ?_⟩
            · rw [Keyed.lookup_insert, beq_self_eq_true]
              exact hFirst
            · intro f' hf'
              have hNe : (f'.name == f.name) = false := by
                refine beq_false_of_ne fun hSame => hNew ?_
                rw [← hSame]
                exact List.mem_map_of_mem hf'
              rw [Keyed.lookup_insert, hNe]
              exact hFound f' hf'

end Generated

end TagWire

------------------------------------------------------------
-- Values of Data
------------------------------------------------------------

namespace TagWire

namespace Generated

open Emit

variable {p : Program}
variable {s : ResolvedSchema}

/- An element type of numbers is that of one kind. -/
theorem eq_of_elementCodeType_number
    {type : ResolvedType}
    {kind : NumKind}
    (h : elementCodeType type = .number kind) :
    type = .scalar (.num kind) := by
  match type, h with
  | .scalar (.num _), rfl => rfl

theorem eq_of_elementCodeType_string
    {type : ResolvedType}
    (h : elementCodeType type = .string) :
    type = .scalar .string := by
  match type, h with
  | .scalar .string, _ => rfl

theorem exists_of_elementCodeType_list
    {type : ResolvedType}
    {t : CodeType}
    (h : elementCodeType type = .list t) :
    ∃ element, type = .list element ∧
      elementCodeType element = t := by
  match type, h with
  | .list element, rfl => exact ⟨element, rfl, rfl⟩
  | .scalar (.num _), h => cases h
  | .scalar .string, h => cases h

theorem exists_of_elementCodeType_map
    {type : ResolvedType}
    {t t' : CodeType}
    (h : elementCodeType type = .map t t') :
    ∃ key value, type = .map key value ∧
      scalarCodeType key = t ∧ elementCodeType value = t' := by
  match type, h with
  | .map key value, rfl => exact ⟨key, value, rfl, rfl, rfl⟩
  | .scalar (.num _), h => cases h
  | .scalar .string, h => cases h

theorem exists_of_elementCodeType_named
    {type : ResolvedType}
    {ident : String}
    (h : elementCodeType type = .named ident) :
    ∃ reference : TypeRef, type = .named reference ∧
      Names.typeIdent reference.name = ident := by
  match type, h with
  | .named reference, rfl => exact ⟨reference, rfl, rfl⟩
  | .scalar (.num _), h => cases h
  | .scalar .string, h => cases h

/- A key of the type of a scalar is of its kind. -/
theorem kind_of_hasType
    {key : ScalarKind}
    {k : MapKey}
    (h : p.HasType (scalarCodeType key) (.ofKey k)) :
    k.kind = key := by
  cases key with
  | num kind =>
      cases k with
      | int _ _ =>
          rw [scalarCodeType, Datum.ofKey] at h
          cases h
          rfl
      | string _ => cases h
  | string =>
      cases k with
      | int _ _ => cases h
      | string _ => rfl

/- Data of the type of a message is that of a message. -/
theorem exists_message
    (hs : s.WellFormed)
    {m : Message TypeRef}
    (hm : m ∈ s.messages)
    {get : String → Datum}
    (h :
      ∀ f ∈ m.fields,
        Stands s (fieldCodeType f.type)
          (get (Names.fieldIdent f.name))) :
    ∃ v, Held s (.named (.message m.name)) v ∧
      datum s v =
        .struct (Names.typeIdent m.name)
          (m.fields.map fun f =>
            (Names.fieldIdent f.name,
              get (Names.fieldIdent f.name))) := by
  have hEach :
      ∀ f ∈ m.fields, ∃ v? : Option Value,
        (∀ v, v? = some v → Held s f.type v) ∧
          fieldDatum s f.type (v?.map (datum s)) =
            get (Names.fieldIdent f.name) :=
    fun f hf => exists_fieldDatum (hs.closed m hm f hf) (h f hf)
  rcases exists_fields (hs.fieldNames m hm) hEach with
    ⟨fields, hAscending, hDeclared, hFound⟩
  refine ⟨.message m.name fields,
    .message hm hAscending hDeclared ?_, ?_⟩
  · intro e he f hf hName
    refine (hFound f hf).1 e.2 ?_
    rw [hName]
    exact Keyed.lookup_of_mem
      (Keyed.nodup_of_ascending hAscending) he
  · rw [datum_message hs hm, structFields]
    refine congrArg (Datum.struct _) ?_
    exact List.map_congr_left fun f hf =>
      Prod.ext rfl (hFound f hf).2

/- A message has the fields that its type declares. -/
theorem fields_binaryMessage
    (m : Message TypeRef)
    (c : MessageCodec) :
    (binaryMessage m c).data.fields =
      m.fields.map fun f =>
        (Names.fieldIdent f.name, fieldCodeType f.type) := by
  unfold binaryMessage
  split <;> rfl

/- What is found for each piece of data is found for all. -/
theorem exists_map_eq
    {α β : Type}
    {g : α → β}
    {Q : α → Prop}
    {bs : List β}
    (h : ∀ b ∈ bs, ∃ a, Q a ∧ g a = b) :
    ∃ as : List α, (∀ a ∈ as, Q a) ∧ as.map g = bs := by
  induction bs with
  | nil => exact ⟨[], by simp, rfl⟩
  | cons b rest ih =>
      rcases List.forall_mem_cons.mp h with
        ⟨⟨a, hFirst, rfl⟩, hRest⟩
      rcases ih hRest with ⟨as, hAll, rfl⟩
      exact
        ⟨a :: as, List.forall_mem_cons.mpr ⟨hFirst, hAll⟩, rfl⟩

/- Data of the type of an enum is that of a variant. -/
theorem Serves.stands_variant
    (hp : Serves p s)
    {ident : String}
    {e : EnumItem}
    {v : Variant}
    (hEnum : p.enum? ident = some e)
    (hVariant : v ∈ e.variants) :
    Stands s (.named ident) (.variant ident v.ident) := by
  intro type hClosed hType
  rcases exists_of_elementCodeType_named hType with
    ⟨reference, rfl, rfl⟩
  cases reference with
  | message name =>
      rcases hClosed with ⟨m, hm, rfl⟩
      cases hEnum.symm.trans (hp.noEnums m hm)
  | enum name =>
      rcases hClosed with ⟨d, hd, rfl, hVariants⟩
      rcases List.exists_mem_of_ne_nil _ hVariants with
        ⟨first, hFirst⟩
      cases hEnum.symm.trans (hp.enums d hd)
      rw [enumItem_of_mem hFirst] at hVariant
      rcases List.mem_map.mp hVariant with
        ⟨⟨variant, i⟩, hMem, rfl⟩
      have hDeclared : variant ∈ d.variants :=
        List.mem_of_getElem?
          (List.mk_mem_zipIdx_iff_getElem?.mp hMem)
      exact ⟨.enum d.name variant, .enum hd hDeclared, by
        rw [datum]
        rfl⟩

/- Data of a type is that of a value, as far as it can be. -/
theorem Serves.stands_of_hasType
    (hs : s.WellFormed)
    (hp : Serves p s)
    {t : CodeType}
    {d : Datum}
    (h : p.HasType t d) :
    Stands s t d := by
  induction h with
  | number =>
      intro type _ hType
      rw [eq_of_elementCodeType_number hType]
      exact ⟨_, .number, by rw [datum]⟩
  | string =>
      intro type _ hType
      rw [eq_of_elementCodeType_string hType]
      exact ⟨_, .string, by rw [datum]⟩
  | variant hEnum hVariant =>
      exact hp.stands_variant hEnum hVariant
  | @struct ident item get hMessage _ ih =>
      intro type hClosed hType
      rcases exists_of_elementCodeType_named hType with
        ⟨reference, rfl, rfl⟩
      cases reference with
      | enum name =>
          rcases hClosed with ⟨e, he, rfl, _⟩
          cases hMessage.symm.trans (hp.noMessages e he)
      | message name =>
          rcases hClosed with ⟨m, hm, rfl⟩
          rcases hp.messages m hm with ⟨c, hItem, _⟩
          cases hMessage.symm.trans hItem
          rw [fields_binaryMessage] at ih ⊢
          rw [List.map_map]
          refine exists_message hs hm fun f hf => ?_
          exact ih _ (List.mem_map_of_mem hf)
  | list _ ih =>
      intro type hClosed hType
      rcases exists_of_elementCodeType_list hType with
        ⟨element, rfl, rfl⟩
      have hElement : s.Closed element := hClosed
      rcases
          exists_map_eq fun d hd =>
            stands_element hElement (ih d hd) with
        ⟨vs, hHeld, rfl⟩
      exact ⟨.list vs, .list hHeld, by
        rw [datum, datumElements_eq]⟩
  | @map _ _ entries hAscending hKeys _ _ ih =>
      intro type hClosed hType
      rcases exists_of_elementCodeType_map hType with
        ⟨key, value, rfl, rfl, rfl⟩
      have hEach :
          ∀ e ∈ entries, ∃ e' : MapKey × Value,
            (e'.1.kind = key ∧ Held s value e'.2) ∧
              Prod.map id (datum s) e' = e := by
        intro e he
        rcases stands_element hClosed.2 (ih e he) with
          ⟨v, hHeld, hDatum⟩
        exact
          ⟨(e.1, v), ⟨kind_of_hasType (hKeys e he), hHeld⟩,
            Prod.ext rfl hDatum⟩
      rcases exists_map_eq hEach with ⟨entries', hHeld, rfl⟩
      refine ⟨.map entries',
        .map (List.pairwise_map.mp hAscending)
          (fun e he => (hHeld e he).1)
          (fun e he => (hHeld e he).2), ?_⟩
      rw [datum, datumEntries_eq]
  | absent => exact .inl rfl
  | present _ ih => exact .inr ⟨_, rfl, ih⟩
  | boxed _ ih => exact ih

end Generated

end TagWire

------------------------------------------------------------
-- Types of the Data of Values
------------------------------------------------------------

namespace TagWire

namespace Generated

open Emit

variable {p : Program}
variable {s : ResolvedSchema}

theorem hasType_key
    (key : MapKey) :
    p.HasType (scalarCodeType key.kind) (.ofKey key) := by
  cases key with
  | int => exact .number
  | string => exact .string

/- The data of a variant is of the type of its enum. -/
theorem Serves.hasType_variant
    (hp : Serves p s)
    {e : EnumDecl}
    (he : e ∈ s.enums)
    {variant : String}
    (h : variant ∈ e.variants) :
    p.HasType (.named (Names.typeIdent e.name))
      (.variant (Names.typeIdent e.name)
        (Names.typeIdent variant)) := by
  have hMem :
      (⟨e.variants.idxOf variant = 0, Names.typeIdent variant,
        e.variants.idxOf variant⟩ : Variant) ∈
        (enumItem .binary e).variants := by
    rw [enumItem_of_mem h]
    exact List.mem_of_find?_eq_some
      (find?_variantItems (hp.variants e he) h)
  exact .variant (hp.enums e he) hMem

/- What a field has is of its type. -/
theorem Serves.hasType_field
    (hs : s.WellFormed)
    (hp : Serves p s)
    {type : ResolvedType}
    (hClosed : s.Closed type)
    {d? : Option Datum}
    (h : ∀ d, d? = some d → p.HasType (elementCodeType type) d) :
    p.HasType (fieldCodeType type) (fieldDatum s type d?) := by
  cases d? with
  | some d =>
      have hType := h d rfl
      match type, hType with
      | .named (.message name), hType =>
          exact .present (.boxed hType)
      | .named (.enum name), hType => exact hType
      | .scalar (.num kind), hType => exact hType
      | .scalar .string, hType => exact hType
      | .list element, hType => exact hType
      | .map key value, hType => exact hType
  | none =>
      match type with
      | .named (.message name) => exact .absent
      | .scalar (.num kind) => exact .number
      | .scalar .string => exact .string
      | .list element => exact .list (by simp)
      | .map key value => exact .map .nil (by simp) (by simp)
      | .named (.enum name) =>
          rcases hClosed with ⟨e, he, rfl, hVariants⟩
          rcases List.exists_cons_of_ne_nil hVariants with
            ⟨first, others, hFirst⟩
          have hMem : first ∈ e.variants := by
            rw [hFirst]
            exact List.mem_cons_self
          have hZero :
              zeroDatum s (.named (.enum e.name)) =
                .variant (Names.typeIdent e.name)
                  (Names.typeIdent first) := by
            rw [zeroDatum, Schema.enum?_of_mem hs he]
            simp [hFirst]
          show p.HasType _ (zeroDatum s (.named (.enum e.name)))
          rw [hZero]
          exact hp.hasType_variant he hMem

/- The data of a value is of the type that can hold it. -/
theorem Serves.hasType_of_held
    (hs : s.WellFormed)
    (hp : Serves p s)
    {type : ResolvedType}
    {v : Value}
    (h : Held s type v) :
    p.HasType (elementCodeType type) (datum s v) := by
  induction h with
  | number =>
      rw [datum]
      exact .number
  | string =>
      rw [datum]
      exact .string
  | enum hEnum hVariant =>
      rw [datum]
      exact hp.hasType_variant hEnum hVariant
  | list _ ih =>
      rw [datum, datumElements_eq]
      refine .list fun d hd => ?_
      rcases List.mem_map.mp hd with ⟨v, hv, rfl⟩
      exact ih v hv
  | map hAscending hKeys _ ih =>
      rw [datum, datumEntries_eq]
      refine .map (List.pairwise_map.mpr hAscending) ?_ ?_
      · intro d hd
        rcases List.mem_map.mp hd with ⟨e, he, rfl⟩
        rw [← hKeys e he]
        exact hasType_key e.1
      · intro d hd
        rcases List.mem_map.mp hd with ⟨e, he, rfl⟩
        exact ih e he
  | @message m fields hm hAscending hDeclared _ ih =>
      rcases hp.messages m hm with ⟨c, hItem, _⟩
      let found (name : String) :=
        (fields.lookup name).map (datum s)
      let get (ident : String) :=
        ((structFields s m.fields found).lookup ident).getD .unit
      have hGet :
          ∀ f ∈ m.fields,
            get (Names.fieldIdent f.name) =
              fieldDatum s f.type (found f.name) := by
        intro f hf
        show Option.getD _ _ = _
        rw [lookup_structFields (hp.fieldIdents m hm) hf]
        rfl
      have hFields :
          structFields s m.fields found =
            (binaryMessage m c).data.fields.map
              fun f => (f.1, get f.1) := by
        rw [fields_binaryMessage, List.map_map, structFields]
        exact List.map_congr_left fun f hf =>
          Prod.ext rfl (hGet f hf).symm
      rw [datum_message hs hm]
      show p.HasType (.named _)
        (.struct _ (structFields s m.fields found))
      rw [hFields]
      refine .struct hItem ?_
      rw [fields_binaryMessage]
      intro d hd
      rcases List.mem_map.mp hd with ⟨f, hf, rfl⟩
      rw [hGet f hf]
      refine hp.hasType_field hs (hs.closed m hm f hf) ?_
      intro d hSome
      rcases Option.map_eq_some_iff.mp hSome with
        ⟨v, hLookup, rfl⟩
      exact ih _ (Keyed.mem_of_lookup hLookup) f hf rfl

/-
  The data of the type of a message is that of the values held
  by it.
-/
theorem Serves.hasType_message_iff
    (hs : s.WellFormed)
    (hp : Serves p s)
    {m : Message TypeRef}
    (hm : m ∈ s.messages)
    (d : Datum) :
    p.HasType (.named (Names.typeIdent m.name)) d ↔
      ∃ v, Held s (.named (.message m.name)) v ∧
        datum s v = d := by
  constructor
  · intro h
    exact hp.stands_of_hasType hs h _ ⟨m, hm, rfl⟩ rfl
  · rintro ⟨v, hHeld, rfl⟩
    exact hp.hasType_of_held hs hHeld

end Generated

end TagWire
