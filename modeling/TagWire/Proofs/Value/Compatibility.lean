import TagWire.Proofs.Schema.Resolution
import TagWire.Proofs.Value.RoundTrip

/-
  Messages that are declared with more and with fewer optional
  fields are read as each other. The walk over the declared
  fields skips a field exactly when another tag is next, so no
  value is lost as long as the tags differ.

  Main declarations:
    * `Schema.SameEnums`
    * `Inserts`
    * `Schema.Extends`
    * `Value.restrict`
    * `Value.decode_append_norm_iff`
    * `Value.decode_extended`
-/

------------------------------------------------------------
-- Schemas with the Same Enums
------------------------------------------------------------

namespace TagWire

namespace EnumDecl

/- What an enum declares, wherever it stands. -/
def outline
    (e : EnumDecl) :
    String × List String :=
  (e.name, e.variants)

end EnumDecl

namespace Schema

/- Two schemas declare the same enums, in any order. -/
def SameEnums
    (s s' : ResolvedSchema) : Prop :=
  ∀ outline,
    outline ∈ s.enums.map EnumDecl.outline ↔
      outline ∈ s'.enums.map EnumDecl.outline

/- A name finds the same variants in two schemas, or none. -/
def SameVariants
    (s s' : ResolvedSchema) : Prop :=
  ∀ name,
    (s.enum? name).map EnumDecl.variants =
      (s'.enum? name).map EnumDecl.variants

variable {s s' : ResolvedSchema}

/- An enum that is found is found in the other schema, too. -/
private theorem exists_enum?_of_sameEnums
    (hs' : s'.WellFormed)
    (hSame :
      ∀ outline,
        outline ∈ s.enums.map EnumDecl.outline →
          outline ∈ s'.enums.map EnumDecl.outline)
    {name : String}
    {e : EnumDecl}
    (h : s.enum? name = some e) :
    ∃ e', s'.enum? name = some e' ∧ e'.variants = e.variants := by
  rcases of_enum?_eq_some h with ⟨hMem, hName⟩
  rcases
      List.mem_map.mp
        (hSame e.outline (List.mem_map_of_mem hMem)) with
    ⟨e', hMem', hOutline⟩
  have hName' : e'.name = e.name := congrArg Prod.fst hOutline
  refine ⟨e', ?_, congrArg Prod.snd hOutline⟩
  unfold enum?
  rw [← hName, ← hName']
  exact find?_of_nodup hs'.enumNames hMem'

/- The same enums are found with the same variants. -/
theorem sameVariants_of_sameEnums
    (hs : s.WellFormed)
    (hs' : s'.WellFormed)
    (hSame : SameEnums s s') :
    SameVariants s s' := by
  intro name
  cases hFound : s.enum? name with
  | some e =>
      rcases
          exists_enum?_of_sameEnums hs'
            (fun outline => (hSame outline).mp) hFound with
        ⟨e', hFound', hVariants⟩
      rw [hFound', Option.map_some, Option.map_some, hVariants]
  | none =>
      cases hFound' : s'.enum? name with
      | none => rfl
      | some e' =>
          rcases
              exists_enum?_of_sameEnums hs
                (fun outline => (hSame outline).mpr)
                hFound' with
            ⟨e, hSome, _⟩
          rw [hFound] at hSome
          cases hSome

theorem SameVariants.symm
    (h : SameVariants s s') :
    SameVariants s' s :=
  fun name => (h name).symm

end Schema

namespace Value

open Schema

variable {s s' : ResolvedSchema}

/- Zero values depend on the variants of enums only. -/
theorem isZero_eq_of_sameVariants
    (h : SameVariants s s')
    (v : Value) :
    v.isZero s' = v.isZero s := by
  cases v with
  | enum name variant =>
      have hName := h name
      rw [isZero, isZero]
      cases hFound : s.enum? name with
      | none =>
          cases hFound' : s'.enum? name with
          | none => rfl
          | some e' => simp [hFound, hFound'] at hName
      | some e =>
          cases hFound' : s'.enum? name with
          | none => simp [hFound, hFound'] at hName
          | some e' =>
              have hVariants : e.variants = e'.variants := by
                simpa [hFound, hFound'] using hName
              simp only [hVariants]
  | _ => simp only [isZero]

/- Normal forms depend on the variants of enums only. -/
theorem norm_eq_of_sameVariants
    (h : SameVariants s s')
    (v : Value) :
    v.norm s' = v.norm s := by
  induction v using Value.induct with
  | number kind word => rw [norm, norm]
  | string text => rw [norm, norm]
  | enum name variant => rw [norm, norm]
  | list elements ih =>
      rw [norm, norm, normElements_eq, normElements_eq,
        List.map_congr_left ih]
  | map entries ih =>
      rw [norm, norm, normEntries_eq, normEntries_eq]
      refine congrArg map (List.map_congr_left fun e he => ?_)
      exact Prod.ext rfl (ih e he)
  | message name fields ih =>
      rw [norm, norm]
      congr 1
      induction fields with
      | nil => rw [normFields, normFields]
      | cons e rest ihRest =>
          rcases e with ⟨name', v⟩
          rcases List.forall_mem_cons.mp ih with
            ⟨hHead, hRest⟩
          rw [normFields, normFields,
            isZero_eq_of_sameVariants h, hHead, ihRest hRest]

/- Numbers of variants depend on the variants only. -/
theorem variantsFit_of_sameVariants
    (h : SameVariants s s')
    {v : Value}
    (hFit : VariantsFit s v) :
    VariantsFit s' v := by
  intro name variant hPart e' index hFound' hIndex
  have hName := h name
  rw [hFound', Option.map_some] at hName
  rcases Option.map_eq_some_iff.mp hName with
    ⟨e, hFound, hVariants⟩
  exact hFit name variant hPart e index hFound
    (hVariants ▸ hIndex)

end Value

end TagWire

------------------------------------------------------------
-- Types Without Messages
------------------------------------------------------------

namespace TagWire

namespace ResolvedType

/- No message is used in a type, at any depth. -/
def Flat
    (type : ResolvedType) : Prop :=
  ∀ name, ¬ TypeExpr.Part (.named (.message name)) type

theorem flat_scalar
    {kind : ScalarKind} :
    Flat (.scalar kind) := by
  intro name h
  cases h

theorem flat_list_iff
    {element : ResolvedType} :
    Flat (.list element) ↔ Flat element := by
  simp [Flat, TypeExpr.part_list_iff]

theorem flat_map_iff
    {key : ScalarKind}
    {value : ResolvedType} :
    Flat (.map key value) ↔ Flat value := by
  simp [Flat, TypeExpr.part_map_iff]

theorem not_flat_message
    {name : String} :
    ¬ Flat (.named (.message name)) :=
  fun h => h name .refl

end ResolvedType

namespace Value

open Schema ResolvedType

variable {s s' : ResolvedSchema}

/- Values of such a type are of it in every schema. -/
theorem conforms_of_flat
    {type : ResolvedType}
    {v : Value}
    (hFlat : Flat type)
    (h : Conforms s type v) :
    Conforms s' type v := by
  induction h with
  | number => exact .number
  | string => exact .string
  | enum => exact .enum
  | list _ ih =>
      have hElement := flat_list_iff.mp hFlat
      exact .list fun v hv => ih v hv hElement
  | map hAscending hKeys _ ih =>
      have hValue := flat_map_iff.mp hFlat
      exact .map hAscending hKeys fun e he => ih e he hValue
  | message => exact absurd hFlat not_flat_message

/- They are encoded alike where enums have the same variants. -/
theorem encodeAs_eq_of_flat
    (h : SameVariants s s')
    {field : String}
    {type : ResolvedType}
    {v : Value}
    (hFlat : Flat type) :
    encodeAs s' field type v = encodeAs s field type v := by
  induction v using Value.induct generalizing type with
  | number kind word => rw [encodeAs, encodeAs]
  | string text => rw [encodeAs, encodeAs]
  | enum name variant =>
      unfold encodeAs
      split
      · next declared =>
          have hIndex :=
            congrArg (·.bind (·.idxOf? variant)) (h declared)
          simp only [Option.bind_map,
            Function.comp_def] at hIndex
          simp only [hIndex]
      · rfl
  | list elements ih =>
      unfold encodeAs
      split
      · next type =>
          have hElement := flat_list_iff.mp hFlat
          have hEach :
              encodeElements s' field type (elements.map id) =
                encodeElements s field type elements :=
            encodeElements_map fun v hv => ih v hv hElement
          rw [List.map_id] at hEach
          rw [hEach]
      · rfl
  | map entries ih =>
      unfold encodeAs
      split
      · next key value =>
          have hValue := flat_map_iff.mp hFlat
          have hEach :
              encodeEntries s' field key value
                  (entries.map (Prod.map id id)) =
                encodeEntries s field key value entries :=
            encodeEntries_map fun e he => ih e he hValue
          rw [Prod.map_id, List.map_id] at hEach
          rw [hEach]
      · rfl
  | message name fields =>
      unfold encodeAs
      split
      · exact absurd hFlat not_flat_message
      · rfl

/- No message is inside, so no byte is mistaken for a tag. -/
theorem undisturbed_of_flat
    {type : ResolvedType}
    {v : Value}
    {data : List UInt8}
    (hFlat : Flat type)
    (h : Conforms s type v) :
    Undisturbed s type v data := by
  induction v using Value.induct generalizing type data with
  | number kind word => exact undisturbed_number
  | string text => exact undisturbed_string
  | enum name variant => exact undisturbed_enum
  | list elements ih =>
      cases h with
      | list hElements =>
          have hElement := flat_list_iff.mp hFlat
          refine undisturbed_iff.mpr ⟨by simp, ?_⟩
          intro offset inner v hInside
          cases hInside with
          | @element _ _ front back _ _ _ =>
              have hMem : v ∈ front ++ v :: back := by simp
              exact ih v hMem hElement (hElements v hMem)
  | map entries ih =>
      cases h with
      | map _ _ hValues =>
          have hValue := flat_map_iff.mp hFlat
          refine undisturbed_iff.mpr ⟨by simp, ?_⟩
          intro offset inner v hInside
          cases hInside with
          | @entry _ _ _ front back e _ _ _ _ =>
              have hMem : e ∈ front ++ e :: back := by simp
              exact ih e hMem hValue (hValues e hMem)
  | message name fields =>
      cases h
      exact absurd hFlat not_flat_message

end Value

end TagWire

------------------------------------------------------------
-- Fields with Different Tags
------------------------------------------------------------

namespace TagWire

namespace Value

variable {s : ResolvedSchema}

/- The first byte is the tag of a field, or behind them all. -/
theorem seq_mem_of_head?
    {declared : List (Field TypeRef)}
    {fields : List (String × Value)}
    {parts : List (List UInt8)}
    {seq : UInt8}
    (h :
      declared.mapM (fun f => encodeField s f fields) =
        .ok parts)
    (rest : List UInt8)
    (hHead : (parts.flatten ++ rest).head? = some seq) :
    seq ∈ declared.map Field.seq ∨ rest.head? = some seq := by
  induction declared generalizing parts with
  | nil =>
      cases h
      exact Or.inr hHead
  | cons f declared ih =>
      simp only [List.mapM_cons, Outcome.bind_eq_ok_iff,
        Outcome.pure_eq_ok_iff] at h
      rcases h with ⟨part, hPart, parts, hParts, rfl⟩
      rw [List.flatten_cons, List.append_assoc] at hHead
      rcases encodeField_eq_ok_iff.mp hPart with
        ⟨v, inner, _, _, _, rfl⟩ | ⟨_, _, rfl⟩
      · cases hHead
        exact Or.inl List.mem_cons_self
      · rcases ih hParts hHead with hMem | hRest
        · exact Or.inl (List.mem_cons_of_mem _ hMem)
        · exact Or.inr hRest

/-
  Tags that differ are not mistaken for one another: what is
  next is the tag of a later field, or lies behind them all.
-/
theorem fieldsUndisturbed_of_seqs
    {declared : List (Field TypeRef)}
    {fields : List (String × Value)}
    {parts : List (List UInt8)}
    {rest : List UInt8}
    (hKeys : (fields.map Prod.fst).Nodup)
    (hSeqs : (declared.map Field.seq).Nodup)
    (hInside :
      ∀ f ∈ declared, ∀ v, fields.lookup f.name = some v →
        ∀ data, Undisturbed s f.type v data)
    (hRest : ∀ f ∈ declared, rest.head? ≠ some f.seq)
    (h :
      declared.mapM (fun f => encodeField s f fields) =
        .ok parts) :
    FieldsUndisturbed s fields declared
      (parts.flatten ++ rest) := by
  induction declared generalizing parts with
  | nil => exact fieldsUndisturbed_nil
  | cons f declared ih =>
      rcases List.nodup_cons.mp hSeqs with ⟨hSeq, hSeqs⟩
      rcases List.forall_mem_cons.mp hInside with
        ⟨hHere, hThere⟩
      rcases List.forall_mem_cons.mp hRest with
        ⟨hBehind, hRest⟩
      simp only [List.mapM_cons, Outcome.bind_eq_ok_iff,
        Outcome.pure_eq_ok_iff] at h
      rcases h with ⟨part, hPart, parts, hParts, rfl⟩
      rw [List.flatten_cons, List.append_assoc,
        fieldsUndisturbed_cons_iff hPart]
      refine ⟨⟨?_, fun v hLookup _ => hHere v hLookup _⟩,
        ih hSeqs hThere hRest hParts⟩
      intro hUnset hHead
      rcases encodeField_eq_ok_iff.mp hPart with
        ⟨v, inner, hLookup, hSet, _, rfl⟩ | ⟨_, _, rfl⟩
      · rw [lookup_normFields_eq_none_iff hKeys] at hUnset
        rw [hUnset v hLookup] at hSet
        cases hSet
      · rcases seq_mem_of_head? hParts rest hHead with
          hMem | hMem
        · exact hSeq hMem
        · exact hBehind hMem

/-
  A message whose tags differ, and that has no message in it,
  is read to its normal form, as long as no tag of its fields
  is right behind it.
-/
theorem decode_append_norm_iff
    (hs : s.WellFormed)
    {name : String}
    {m : Message TypeRef}
    (hMessage : m ∈ s.messages)
    (hName : m.name = name)
    (hSeqs : (m.fields.map Field.seq).Nodup)
    {fields : List (String × Value)}
    (hConforms :
      Conforms s (.named (.message name)) (message name fields))
    (hFlat :
      ∀ f ∈ m.fields, ∀ v, fields.lookup f.name = some v →
        ResolvedType.Flat f.type)
    {bytes : List UInt8}
    (hEncode : (message name fields).encode s = .ok bytes)
    (rest : List UInt8)
    (hRest : ∀ f ∈ m.fields, rest.head? ≠ some f.seq) :
    decode s name (bytes ++ rest) =
        .ok ((message name fields).norm s) ↔
      VariantsFit s (message name fields) := by
  have hFound : s.message? name = some m :=
    hName ▸ Schema.message?_of_mem hs hMessage
  rcases encode_message_eq_ok_iff.mp hEncode with
    ⟨m₁, parts, hFound₁, hParts, hBytes⟩
  rw [hFound] at hFound₁
  cases hFound₁
  cases hConforms with
  | @message _ m₂ _ hFound₂ _ hAscending hDeclared hValues =>
      rw [hFound] at hFound₂
      cases hFound₂
      have hKeys := Keyed.nodup_of_ascending hAscending
      have hValue :
          ∀ f ∈ m.fields, ∀ v,
            fields.lookup f.name = some v →
              Conforms s f.type v := by
        intro f hf v hLookup
        exact hValues _ (Keyed.mem_of_lookup hLookup) f hf rfl
      have hEach :
          ∀ f ∈ m.fields, ∀ v,
            fields.lookup f.name = some v →
              RoundTrips s f.type v := by
        intro f hf v hLookup
        exact roundTrips_of_conforms hs
          (hs.closed m hMessage f hf) (hValue f hf v hLookup)
      have hUndisturbed :
          Undisturbed s (.named (.message name))
            (message name fields) (bytes ++ rest) := by
        rw [undisturbed_message_iff hFound, hBytes]
        refine fieldsUndisturbed_of_seqs hKeys hSeqs ?_ hRest
          hParts
        intro f hf v hLookup data
        exact undisturbed_of_flat (hFlat f hf v hLookup)
          (hValue f hf v hLookup)
      rw [decode_eq_ok_iff, norm,
        ← and_iff_right (b := VariantsFit s _) hUndisturbed,
        ← reads_body_norm_iff hs hFound hAscending hDeclared
          hEach hEncode]
      constructor
      · intro h
        rcases h with
          ⟨_, found, behind, hSame, hFields, hReads⟩
        rw [hFound] at hSame
        cases hSame
        rcases Value.message.inj hFields with ⟨_, hFields⟩
        exact ⟨found, behind, hFields.symm, hReads⟩
      · intro h
        rcases h with ⟨found, behind, hSame, hReads⟩
        refine ⟨m, found, behind, hFound, ?_, hReads⟩
        rw [hSame, hName]

end Value

end TagWire

------------------------------------------------------------
-- Inserted Fields
------------------------------------------------------------

namespace TagWire

namespace Field

/- Two fields are declared alike, wherever they stand. -/
structure Same
    (f f' : Field TypeRef) : Prop where
  name : f'.name = f.name
  seq : f'.seq = f.seq
  optional : f'.optional = f.optional
  type : f'.type = f.type

end Field

/-
  Optional fields are inserted among some fields, anywhere,
  and the others stay the same, in the same order.
-/
inductive Inserts :
    List (Field TypeRef) → List (Field TypeRef) → Prop
| nil : Inserts [] []
| keep
    {f f' : Field TypeRef}
    {declared declared' : List (Field TypeRef)}
    (hSame : f.Same f')
    (h : Inserts declared declared') :
    Inserts (f :: declared) (f' :: declared')
| insert
    {f' : Field TypeRef}
    {declared declared' : List (Field TypeRef)}
    (hOptional : f'.optional = true)
    (h : Inserts declared declared') :
    Inserts declared (f' :: declared')

namespace Inserts

variable {declared declared' : List (Field TypeRef)}

/- No field is lost. -/
theorem exists_same
    (h : Inserts declared declared')
    {f : Field TypeRef}
    (hf : f ∈ declared) :
    ∃ f' ∈ declared', f.Same f' := by
  induction h with
  | nil => cases hf
  | keep hSame _ ih =>
      rcases List.mem_cons.mp hf with rfl | hf
      · exact ⟨_, List.mem_cons_self, hSame⟩
      · rcases ih hf with ⟨f', hf', hSame'⟩
        exact ⟨f', List.mem_cons_of_mem _ hf', hSame'⟩
  | insert _ _ ih =>
      rcases ih hf with ⟨f', hf', hSame'⟩
      exact ⟨f', List.mem_cons_of_mem _ hf', hSame'⟩

/- No name is lost. -/
theorem names_subset
    (h : Inserts declared declared') :
    declared.map Field.name ⊆ declared'.map Field.name := by
  intro name hName
  rcases List.mem_map.mp hName with ⟨f, hf, rfl⟩
  rcases h.exists_same hf with ⟨f', hf', hSame⟩
  exact hSame.name ▸ List.mem_map_of_mem hf'

end Inserts

namespace Schema

/-
  A message of one schema is declared again in another schema
  with the same enums, with optional fields inserted. Nothing
  is said of the other messages and of services.
-/
structure Extends
    (s s' : ResolvedSchema)
    (m m' : Message TypeRef) : Prop where
  enums : SameEnums s s'
  message : m ∈ s.messages
  message' : m' ∈ s'.messages
  name : m'.name = m.name
  fields : Inserts m.fields m'.fields

end Schema

namespace Value

open Schema ResolvedType

variable {s s' : ResolvedSchema}

/- Fields declared alike are encoded alike. -/
theorem encodeField_eq_of_same
    (hVariants : SameVariants s s')
    {f f' : Field TypeRef}
    (hSame : f.Same f')
    (hFlat : Flat f.type)
    {fields fields' : List (String × Value)}
    (hLookup : fields'.lookup f.name = fields.lookup f.name) :
    encodeField s' f' fields' = encodeField s f fields := by
  have hUnset : encodeUnset f' = encodeUnset f := by
    rw [encodeUnset, encodeUnset, hSame.optional, hSame.name]
  rw [encodeField_eq, encodeField_eq, hSame.name, hLookup]
  cases fields.lookup f.name with
  | none => exact hUnset
  | some v =>
      simp only [encodeSet, hUnset, hSame.name, hSame.seq,
        hSame.type, isZero_eq_of_sameVariants hVariants,
        encodeAs_eq_of_flat hVariants hFlat]

/- Inserted fields are unset, and no byte is written for them. -/
theorem mapM_encodeField_of_inserts
    (hVariants : SameVariants s s')
    {declared declared' : List (Field TypeRef)}
    (hInserts : Inserts declared declared')
    (hNodup : (declared'.map Field.name).Nodup)
    (hFlat : ∀ f ∈ declared, Flat f.type)
    {fields : List (String × Value)}
    (hDeclared :
      ∀ f' ∈ declared', f'.name ∈ fields.map Prod.fst →
        f'.name ∈ declared.map Field.name)
    {parts : List (List UInt8)}
    (h :
      declared.mapM (fun f => encodeField s f fields) =
        .ok parts) :
    ∃ parts',
      declared'.mapM (fun f => encodeField s' f fields) =
          .ok parts' ∧
        parts'.flatten = parts.flatten := by
  induction hInserts generalizing parts with
  | nil =>
      cases h
      exact ⟨[], rfl, rfl⟩
  | @keep f f' declared declared' hSame hInserts ih =>
      rcases List.nodup_cons.mp hNodup with ⟨hName, hNodup⟩
      rcases List.forall_mem_cons.mp hFlat with
        ⟨hHere, hFlat⟩
      simp only [List.mapM_cons, Outcome.bind_eq_ok_iff,
        Outcome.pure_eq_ok_iff] at h ⊢
      rcases h with ⟨part, hPart, parts, hParts, rfl⟩
      have hOthers :
          ∀ g ∈ declared', g.name ∈ fields.map Prod.fst →
            g.name ∈ declared.map Field.name := by
        intro g hg hMem
        rcases
            List.mem_cons.mp
              (hDeclared g (List.mem_cons_of_mem _ hg) hMem)
          with hEq | hMem
        · have hEq := hEq.trans hSame.name.symm
          exact absurd (List.mem_map_of_mem hg) (hEq ▸ hName)
        · exact hMem
      rcases ih hNodup hFlat hOthers hParts with
        ⟨parts', hParts', hFlatten⟩
      have hPart' :=
        (encodeField_eq_of_same hVariants hSame hHere
          rfl).trans hPart
      refine ⟨_, ⟨part, hPart', parts', hParts', rfl⟩, ?_⟩
      rw [List.flatten_cons, List.flatten_cons, hFlatten]
  | @insert f' declared declared' hOptional hInserts ih =>
      rcases List.nodup_cons.mp hNodup with ⟨hName, hNodup⟩
      rcases List.forall_mem_cons.mp hDeclared with
        ⟨hHere, hDeclared⟩
      rcases ih hNodup hFlat hDeclared h with
        ⟨parts', hParts', hFlatten⟩
      have hNotSet : f'.name ∉ fields.map Prod.fst :=
        fun hMem => hName (hInserts.names_subset (hHere hMem))
      have hPart : encodeField s' f' fields = .ok [] := by
        rw [encodeField_of_not_mem hNotSet,
          encodeUnset_eq_ok_iff]
        exact ⟨hOptional, rfl⟩
      simp only [List.mapM_cons, Outcome.bind_eq_ok_iff,
        Outcome.pure_eq_ok_iff]
      exact ⟨_, ⟨[], hPart, parts', hParts', rfl⟩, hFlatten⟩

end Value

end TagWire

------------------------------------------------------------
-- Reading by the Other Declaration
------------------------------------------------------------

namespace TagWire

namespace Value

open Schema ResolvedType

variable {s s' : ResolvedSchema}
variable {m m' : Message TypeRef}

/- The declared fields only, of a message. -/
def restrict
    (declared : List (Field TypeRef)) :
    Value → Value
| message name fields =>
    message name
      (fields.filter (·.1 ∈ declared.map Field.name))
| v => v

/- A declared field finds what it found among more fields. -/
theorem lookup_filter_names
    {names : List String}
    {name : String}
    (hName : name ∈ names)
    (fields : List (String × Value)) :
    (fields.filter (·.1 ∈ names)).lookup name =
      fields.lookup name :=
  Keyed.lookup_filter (fun n => decide (n ∈ names))
    (decide_eq_true hName) fields

/- It does not matter which fields are removed first. -/
theorem normFields_filter_names
    (names : List String)
    (fields : List (String × Value)) :
    normFields s (fields.filter (·.1 ∈ names)) =
      (normFields s fields).filter (·.1 ∈ names) := by
  induction fields with
  | nil => rw [List.filter_nil, normFields, List.filter_nil]
  | cons e rest ih =>
      rcases e with ⟨name, v⟩
      by_cases hMem : name ∈ names
      · rw [List.filter_cons_of_pos (by simpa using hMem),
          normFields, normFields, ih]
        split
        · rfl
        · rw [List.filter_cons_of_pos (by simpa using hMem)]
      · rw [List.filter_cons_of_neg (by simpa using hMem),
          normFields, ih]
        split
        · rfl
        · rw [List.filter_cons_of_neg (by simpa using hMem)]

/- The normal form of what is left is what is left of it. -/
theorem norm_restrict
    (declared : List (Field TypeRef))
    (v : Value) :
    (v.restrict declared).norm s =
      (v.norm s).restrict declared := by
  cases v with
  | message name fields =>
      simp only [restrict, norm, normFields_filter_names]
  | _ => simp only [restrict, norm]

/-
  What is encoded as the smaller message is read back as the
  larger one: no byte of it is the tag of an inserted field.
-/
theorem decode_by_extended
    (hs : s.WellFormed)
    (hs' : s'.WellFormed)
    (hExtends : Extends s s' m m')
    (hSeqs : (m'.fields.map Field.seq).Nodup)
    (hFlat : ∀ f ∈ m.fields, Flat f.type)
    {v : Value}
    (hConforms : Conforms s (.named (.message m.name)) v)
    {bytes : List UInt8}
    (hEncode : v.encode s = .ok bytes) :
    decode s' m.name bytes = .ok (v.norm s) ↔
      VariantsFit s v := by
  have hVariants :=
    sameVariants_of_sameEnums hs hs' hExtends.enums
  have hNodup := hs'.fieldNames m' hExtends.message'
  have hFound := message?_of_mem hs hExtends.message
  have hFound' : s'.message? m.name = some m' :=
    hExtends.name ▸ message?_of_mem hs' hExtends.message'
  cases hConforms with
  | @message _ m₁ fields hFound₁ _ hAscending hDeclared
      hValues =>
      rw [hFound] at hFound₁
      cases hFound₁
      have hTypes :
          ∀ e ∈ fields, ∀ f' ∈ m'.fields, f'.name = e.1 →
            Flat f'.type ∧ Conforms s' f'.type e.2 := by
        intro e he f' hf' hName'
        rcases List.mem_map.mp (hDeclared e he) with
          ⟨f, hf, hName⟩
        rcases hExtends.fields.exists_same hf with
          ⟨f₁, hf₁, hSame⟩
        have hEq : f₁.name = f'.name :=
          hSame.name.trans (hName.trans hName'.symm)
        obtain rfl := List.inj_on_of_nodup_map hNodup hf₁ hf' hEq
        rw [hSame.type]
        exact ⟨hFlat f hf,
          conforms_of_flat (hFlat f hf) (hValues e he f hf hName)⟩
      have hConforms' :
          Conforms s' (.named (.message m.name))
            (message m.name fields) := by
        refine .message hFound' hExtends.name hAscending ?_ ?_
        · exact fun e he =>
            hExtends.fields.names_subset (hDeclared e he)
        · exact fun e he f' hf' hName =>
            (hTypes e he f' hf' hName).2
      rcases encode_message_eq_ok_iff.mp hEncode with
        ⟨m₁, parts, hFound₁, hParts, rfl⟩
      rw [hFound] at hFound₁
      cases hFound₁
      rcases
          mapM_encodeField_of_inserts hVariants hExtends.fields
            hNodup hFlat
            (fun f' _ hMem => by
              rcases List.mem_map.mp hMem with ⟨e, he, hName⟩
              exact hName ▸ hDeclared e he)
            hParts with
        ⟨parts', hParts', hFlatten⟩
      have hEncode' :
          (message m.name fields).encode s' =
            .ok parts.flatten :=
        encode_message_eq_ok_iff.mpr
          ⟨m', parts', hFound', hParts', hFlatten.symm⟩
      have hDecode :=
        decode_append_norm_iff hs' hExtends.message'
          hExtends.name hSeqs hConforms'
          (fun f hf v hLookup =>
            (hTypes _ (Keyed.mem_of_lookup hLookup) f hf rfl).1)
          hEncode' [] (by simp)
      rw [List.append_nil,
        norm_eq_of_sameVariants hVariants] at hDecode
      exact hDecode.trans
        ⟨variantsFit_of_sameVariants hVariants.symm,
          variantsFit_of_sameVariants hVariants⟩

/- Fields declared alike are all encoded alike. -/
private theorem mapM_encodeField_of_same
    (hVariants : SameVariants s s')
    {declared front : List (Field TypeRef)}
    (hSame : List.Forall₂ Field.Same declared front)
    (hFlat : ∀ f ∈ declared, Flat f.type)
    {fields fields' : List (String × Value)}
    (hLookup :
      ∀ f ∈ declared,
        fields'.lookup f.name = fields.lookup f.name) :
    front.mapM (fun f => encodeField s' f fields') =
      declared.mapM (fun f => encodeField s f fields) := by
  induction hSame with
  | nil => rfl
  | cons hHead _ ih =>
      rcases List.forall_mem_cons.mp hFlat with
        ⟨hFlat, hOthers⟩
      rcases List.forall_mem_cons.mp hLookup with
        ⟨hFirst, hRest⟩
      rw [List.mapM_cons, List.mapM_cons, ih hOthers hRest,
        encodeField_eq_of_same hVariants hHead hFlat hFirst]

/- Fields declared alike have the same of what they share. -/
private theorem map_eq_of_same
    {α : Type}
    {g : Field TypeRef → α}
    (hKept : ∀ f f', Field.Same f f' → g f = g f')
    {declared front : List (Field TypeRef)}
    (hSame : List.Forall₂ Field.Same declared front) :
    declared.map g = front.map g := by
  induction hSame with
  | nil => rfl
  | cons hHead _ ih =>
      rw [List.map_cons, List.map_cons, hKept _ _ hHead, ih]

/- The declared fields of a larger message are a smaller one. -/
theorem conforms_restrict
    (hs : s.WellFormed)
    (hs' : s'.WellFormed)
    (hExtends : Extends s s' m m')
    (hFlat : ∀ f ∈ m.fields, Flat f.type)
    {v : Value}
    (hConforms : Conforms s' (.named (.message m.name)) v) :
    Conforms s (.named (.message m.name))
      (v.restrict m.fields) := by
  have hFound := message?_of_mem hs hExtends.message
  have hFound' : s'.message? m.name = some m' :=
    hExtends.name ▸ message?_of_mem hs' hExtends.message'
  cases hConforms with
  | @message _ m₁ fields hFound₁ _ hAscending _ hValues =>
      rw [hFound'] at hFound₁
      cases hFound₁
      refine .message hFound rfl
        (hAscending.sublist List.filter_sublist) ?_ ?_
      · intro e he
        exact of_decide_eq_true (List.mem_filter.mp he).2
      · intro e he f hf hName
        rcases hExtends.fields.exists_same hf with
          ⟨f', hf', hSame⟩
        have hValue :=
          hValues e (List.mem_filter.mp he).1 f' hf'
            (hSame.name.trans hName)
        rw [hSame.type] at hValue
        exact conforms_of_flat (hFlat f hf) hValue

/-
  What is encoded as the larger message is read as the smaller
  one up to the first field that is not declared there, whose
  tag ends the walk over the declared ones.
-/
theorem decode_by_restricted
    (hs : s.WellFormed)
    (hs' : s'.WellFormed)
    (hExtends : Extends s s' m m')
    (hSeqs : (m'.fields.map Field.seq).Nodup)
    (hFlat : ∀ f ∈ m.fields, Flat f.type)
    {front back : List (Field TypeRef)}
    (hSplit : m'.fields = front ++ back)
    (hFront : List.Forall₂ Field.Same m.fields front)
    {v : Value}
    (hConforms : Conforms s' (.named (.message m.name)) v)
    {bytes : List UInt8}
    (hEncode : v.encode s' = .ok bytes) :
    decode s m.name bytes =
        .ok ((v.norm s').restrict m.fields) ↔
      VariantsFit s (v.restrict m.fields) := by
  have hVariants :=
    sameVariants_of_sameEnums hs hs' hExtends.enums
  have hFound := message?_of_mem hs hExtends.message
  have hFound' : s'.message? m.name = some m' :=
    hExtends.name ▸ message?_of_mem hs' hExtends.message'
  have hSmaller :=
    conforms_restrict hs hs' hExtends hFlat hConforms
  cases hConforms with
  | @message _ _ fields _ _ _ _ _ =>
      rcases encode_message_eq_ok_iff.mp hEncode with
        ⟨m₁, parts, hFound₁, hParts, rfl⟩
      rw [hFound'] at hFound₁
      cases hFound₁
      rw [hSplit] at hParts
      rcases Outcome.mapM_append_eq_ok_iff.mp hParts with
        ⟨own, others, hOwn, hOthers, rfl⟩
      have hOwn' :
          m.fields.mapM
              (fun f =>
                encodeField s f
                  (fields.filter
                    (·.1 ∈ m.fields.map Field.name))) =
            .ok own := by
        rw [← hOwn]
        refine (mapM_encodeField_of_same hVariants hFront
          hFlat fun f hf => ?_).symm
        exact (lookup_filter_names (List.mem_map_of_mem hf)
          fields).symm
      have hSeq : m.fields.map Field.seq = front.map Field.seq :=
        map_eq_of_same (fun _ _ h => h.seq.symm) hFront
      rw [hSplit, List.map_append, ← hSeq] at hSeqs
      rcases List.nodup_append.mp hSeqs with
        ⟨hSeqs, _, hApart⟩
      have hRest :
          ∀ f ∈ m.fields,
            others.flatten.head? ≠ some f.seq := by
        intro f hf hHead
        rw [← List.append_nil others.flatten] at hHead
        rcases seq_mem_of_head? hOthers [] hHead with
          hMem | hNone
        · exact hApart _ (List.mem_map_of_mem hf) _ hMem rfl
        · cases hNone
      have hDecode :=
        decode_append_norm_iff hs hExtends.message rfl hSeqs
          hSmaller (fun f hf _ _ => hFlat f hf)
          (encode_message_eq_ok_iff.mpr
            ⟨m, own, hFound, hOwn', rfl⟩)
          others.flatten hRest
      rw [List.flatten_append, norm_eq_of_sameVariants hVariants,
        ← norm_restrict]
      exact hDecode

/-
  Two schemas that are accepted declare the same enums, and a
  message with more optional fields in one than in the other.
  The tags of the larger message differ, and the smaller one
  has no messages inside. Then every value of the smaller
  message that is encoded is decoded by the larger one to its
  normal form. When the inserted fields all come last, every
  value of the larger message that is encoded is decoded by
  the smaller one to the declared fields of its normal form.
  The numbers of variants have to fit their four bytes, which
  they do in every enum of up to so many variants.
-/
theorem decode_extended
    {text text' : String}
    {s s' : ResolvedSchema}
    (hCompile : compile text = .ok s)
    (hCompile' : compile text' = .ok s')
    {m m' : Message TypeRef}
    (hExtends : Extends s s' m m')
    (hSeqs : (m'.fields.map Field.seq).Nodup)
    (hFlat : ∀ f ∈ m.fields, Flat f.type) :
    (∀ v bytes,
      Conforms s (.named (.message m.name)) v →
      v.encode s = .ok bytes →
        (decode s' m.name bytes = .ok (v.norm s) ↔
          VariantsFit s v)) ∧
    (∀ front back,
      m'.fields = front ++ back →
      List.Forall₂ Field.Same m.fields front →
      ∀ v' bytes',
        Conforms s' (.named (.message m.name)) v' →
        v'.encode s' = .ok bytes' →
          (decode s m.name bytes' =
              .ok ((v'.norm s').restrict m.fields) ↔
            VariantsFit s (v'.restrict m.fields))) ∧
    ((∀ e ∈ s.enums, e.variants.length ≤ 2 ^ 32) →
      ∀ v, VariantsFit s v) := by
  have hs := wellFormed_of_compile hCompile
  have hs' := wellFormed_of_compile hCompile'
  refine ⟨?_, ?_, variantsFit_of_length_le⟩
  · intro v bytes hConforms hEncode
    exact decode_by_extended hs hs' hExtends hSeqs hFlat
      hConforms hEncode
  · intro front back hSplit hFront v' bytes' hConforms
      hEncode
    exact decode_by_restricted hs hs' hExtends hSeqs hFlat
      hSplit hFront hConforms hEncode

end Value

namespace Sample

def pointText : String :=
  textOfLines
    (declarationLines "message Point"
      [
        "seq=1 int32 x;",
        "optional seq=2 int32 y;"
      ])

/- Points that know a label and the points before them. -/
def tracedText : String :=
  textOfLines
    (declarationLines "message Point"
      [
        "seq=1 int32 x;",
        "optional seq=2 int32 y;",
        "optional seq=4 string label;",
        "optional seq=3 list[Point] trace;"
      ])

def Point.declaration : Message TypeRef where
  name := "Point"
  fields :=
    [
      ⟨"x", 1, false, .scalar (.num (.int .int32)), ⟨2, 5⟩⟩,
      ⟨"y", 2, true, .scalar (.num (.int .int32)), ⟨3, 5⟩⟩
    ]
  position := ⟨1, 1⟩

def TracedPoint.declaration : Message TypeRef where
  name := "Point"
  fields :=
    [
      ⟨"x", 1, false, .scalar (.num (.int .int32)), ⟨2, 5⟩⟩,
      ⟨"y", 2, true, .scalar (.num (.int .int32)), ⟨3, 5⟩⟩,
      ⟨"label", 4, true, .scalar .string, ⟨4, 5⟩⟩,
      ⟨"trace", 3, true, .list (.named (.message "Point")),
        ⟨5, 5⟩⟩
    ]
  position := ⟨1, 1⟩

def pointSchema : ResolvedSchema where
  enums := []
  messages := [Point.declaration]
  services := []

def tracedSchema : ResolvedSchema where
  enums := []
  messages := [TracedPoint.declaration]
  services := []

theorem compile_pointText :
    compile pointText = .ok pointSchema := by
  apply Outcome.eq_ok_of_toOption
  unfold compile parseSource parseText tokenize pointText
  rw [toList_textOfLines]
  decide +kernel

theorem compile_tracedText :
    compile tracedText = .ok tracedSchema := by
  apply Outcome.eq_ok_of_toOption
  unfold compile parseSource parseText tokenize tracedText
  rw [toList_textOfLines]
  decide +kernel

end Sample

namespace Value

open Schema ResolvedType

open Sample in
/-
  A point with two coordinates, read by the declaration with a
  label and a trace, and a point with a trace, read without.
-/
theorem decode_extended_point :
    ∃ v v',
      Conforms pointSchema (.named (.message "Point")) v ∧
      v.encode pointSchema = .ok [1, 5, 0, 0, 0] ∧
      decode tracedSchema "Point" [1, 5, 0, 0, 0] =
        .ok (v.norm pointSchema) ∧
      Conforms tracedSchema (.named (.message "Point")) v' ∧
      v'.encode tracedSchema =
        .ok [1, 7, 0, 0, 0, 3, 1, 0, 0, 0, 1, 9, 0, 0, 0] ∧
      decode pointSchema "Point"
          [1, 7, 0, 0, 0, 3, 1, 0, 0, 0, 1, 9, 0, 0, 0] =
        .ok
          ((v'.norm tracedSchema).restrict
            Point.declaration.fields) := by
  have hNumber :
      ∀ (s : ResolvedSchema)
        (word : NumKind.Word (.int .int32)),
        Conforms s (.scalar (.num (.int .int32)))
          (number (.int .int32) word) :=
    fun _ _ => .number
  have hPoint :
      Conforms pointSchema (.named (.message "Point"))
        (message "Point"
          [
            ("x", number (.int .int32) 5),
            ("y", number (.int .int32) 0)
          ]) := by
    refine .message (m := Point.declaration) rfl rfl
      (by decide) (by decide) ?_
    simpa [Point.declaration] using ⟨hNumber _ 5, hNumber _ 0⟩
  have hBefore :
      Conforms tracedSchema (.named (.message "Point"))
        (message "Point" [("x", number (.int .int32) 9)]) := by
    refine .message (m := TracedPoint.declaration) rfl rfl
      (by decide) (by decide) ?_
    simpa [TracedPoint.declaration] using hNumber _ 9
  have hTrace :
      Conforms tracedSchema
        (.list (.named (.message "Point")))
        (list
          [message "Point" [("x", number (.int .int32) 9)]]) :=
    .list (by simpa using hBefore)
  have hTraced :
      Conforms tracedSchema (.named (.message "Point"))
        (message "Point"
          [
            ("trace",
              list
                [message "Point"
                  [("x", number (.int .int32) 9)]]),
            ("x", number (.int .int32) 7)
          ]) := by
    refine .message (m := TracedPoint.declaration) rfl rfl
      (by decide) (by decide) ?_
    simpa [TracedPoint.declaration] using
      ⟨hTrace, hNumber _ 7⟩
  have hExtends :
      Extends pointSchema tracedSchema Point.declaration
        TracedPoint.declaration :=
    {
      enums := fun _ => Iff.rfl
      message := List.mem_singleton_self _
      message' := List.mem_singleton_self _
      name := rfl
      fields :=
        .keep ⟨rfl, rfl, rfl, rfl⟩
          (.keep ⟨rfl, rfl, rfl, rfl⟩
            (.insert rfl (.insert rfl .nil)))
    }
  have hFlat :
      ∀ f ∈ Point.declaration.fields, Flat f.type := by
    simpa [Point.declaration] using flat_scalar
  rcases
      decode_extended compile_pointText compile_tracedText
        hExtends (by decide) hFlat with
    ⟨hExtended, hRestricted, hFit⟩
  have hFit :=
    hFit fun e he => absurd he (List.not_mem_nil)
  have hFront :
      List.Forall₂ Field.Same Point.declaration.fields
        (TracedPoint.declaration.fields.take 2) :=
    .cons ⟨rfl, rfl, rfl, rfl⟩
      (.cons ⟨rfl, rfl, rfl, rfl⟩ .nil)
  exact
    ⟨_, _, hPoint, rfl,
      (hExtended _ _ hPoint rfl).mpr (hFit _), hTraced, rfl,
      (hRestricted _ (TracedPoint.declaration.fields.drop 2)
        rfl hFront _ _ hTraced rfl).mpr (hFit _)⟩

end Value

end TagWire
