import TagWire.Proofs.Value.Acceptance

/-
  Values that are right but for fields that are not set. Such
  a value is encoded when all its required fields are set, and
  otherwise the first that is not is reported. A field with a
  zero value is as good as one that is not there.

  Main declarations:
    * `Value.Zero` and `Value.isZero_iff`
    * `Value.unset`
    * `Value.Misses`
    * `Value.not_mem_unset_iff`
    * `Value.encodeAs_raises`
    * `Value.encode_raises_unset`
-/

------------------------------------------------------------
-- Zero Values
------------------------------------------------------------

namespace TagWire

/- At most the highest bit is set in zero and in the sign. -/
private theorem toNat_mod_eq_zero_iff
    {n : Nat}
    {word : BitVec (n + 1)} :
    word.toNat % Nat.pow 2 n = 0 ↔
      word = 0#(n + 1) ∨ word = BitVec.twoPow (n + 1) n := by
  have hBound : word.toNat < 2 ^ n * 2 := by
    rw [← Nat.pow_succ]
    exact word.isLt
  have hSign : 2 ^ n % 2 ^ (n + 1) = 2 ^ n :=
    Nat.mod_eq_of_lt (Nat.pow_lt_pow_succ (by decide))
  rw [← BitVec.toNat_inj, ← BitVec.toNat_inj,
    BitVec.toNat_twoPow, BitVec.toNat_zero, hSign]
  constructor
  · intro h
    rcases Nat.dvd_of_mod_eq_zero h with ⟨k, hk⟩
    have hk : word.toNat = 2 ^ n * k := hk
    rw [hk] at hBound
    have hSmall : k < 2 := Nat.lt_of_mul_lt_mul_left hBound
    rcases (by omega : k = 0 ∨ k = 1) with rfl | rfl
    · exact Or.inl (by rw [hk, Nat.mul_zero])
    · exact Or.inr (by rw [hk, Nat.mul_one])
  · intro h
    rcases h with h | h
    · rw [h, Nat.zero_mod]
    · rw [h]
      exact Nat.mod_self _

/- A float is zero when at most its sign is set. -/
theorem FloatKind.isZero_iff
    {kind : FloatKind}
    {word : kind.Word} :
    kind.isZero word = true ↔
      word = 0 ∨ word = BitVec.twoPow _ (8 * kind.size - 1) := by
  rw [isZero, beq_iff_eq]
  cases kind with
  | float32 => exact toNat_mod_eq_zero_iff (n := 31)
  | float64 => exact toNat_mod_eq_zero_iff (n := 63)

namespace Value

/-
  The zero values: zero of either sign, the empty string, the
  first variant of an enum, and the empty list and map.
-/
inductive Zero
    (s : ResolvedSchema) :
    Value → Prop
| int
    {kind : IntKind} :
    Zero s (number (.int kind) 0)
| float
    {kind : FloatKind}
    {word : kind.Word}
    (hSign :
      word = 0 ∨ word = BitVec.twoPow _ (8 * kind.size - 1)) :
    Zero s (number (.float kind) word)
| string : Zero s (string "")
| enum
    {name variant : String}
    {e : EnumDecl}
    (hEnum : s.enum? name = some e)
    (hFirst : e.variants.head? = some variant) :
    Zero s (enum name variant)
| list : Zero s (list [])
| map : Zero s (map [])

variable {s : ResolvedSchema}

/- These are the values that count as zero. -/
theorem isZero_iff
    {v : Value} :
    v.isZero s = true ↔ Zero s v := by
  constructor
  · intro h
    cases v with
    | number kind word =>
        cases kind with
        | int kind =>
            cases eq_of_beq h
            exact .int
        | float kind => exact .float (FloatKind.isZero_iff.mp h)
    | string text =>
        cases String.isEmpty_iff.mp h
        exact .string
    | enum name variant =>
        rw [isZero] at h
        split at h
        · next e hEnum => exact .enum hEnum (beq_iff_eq.mp h)
        · cases h
    | list elements =>
        cases List.isEmpty_iff.mp h
        exact .list
    | map entries =>
        cases List.isEmpty_iff.mp h
        exact .map
    | message name fields => cases h
  · intro h
    cases h with
    | int => exact beq_self_eq_true _
    | float hSign => exact FloatKind.isZero_iff.mpr hSign
    | string => rfl
    | enum hEnum hFirst =>
        rw [isZero, hEnum]
        exact beq_iff_eq.mpr hFirst
    | list => rfl
    | map => rfl

end Value

end TagWire

------------------------------------------------------------
-- Unset Fields
------------------------------------------------------------

namespace TagWire

namespace Value

/- The name of a field, if the field is required. -/
def requiredName
    (f : Field TypeRef) :
    List String :=
  if f.optional then [] else [f.name]

mutual

/-
  The required fields that are not set anywhere in a value, in
  the order in which they are missed: those of a message in
  the order declared, where a set field takes its place with
  those inside its value.
-/
def unset
    (s : ResolvedSchema) :
    Value → List String
| number _ _ => []
| string _ => []
| enum _ _ => []
| list elements => unsetInElements s elements
| map entries => unsetInEntries s entries
| message name fields =>
    match s.message? name with
    | none => []
    | some m =>
        m.fields.flatMap (fun f => unsetInField s f fields)

/- Those in the elements of a list, in their order. -/
def unsetInElements
    (s : ResolvedSchema) :
    List Value → List String
| [] => []
| v :: rest => unset s v ++ unsetInElements s rest

/- Those in the values of a map, in the order of the keys. -/
def unsetInEntries
    (s : ResolvedSchema) :
    List (MapKey × Value) → List String
| [] => []
| (_, v) :: rest => unset s v ++ unsetInEntries s rest

/- A declared field, or those inside it, given some fields. -/
def unsetInField
    (s : ResolvedSchema)
    (f : Field TypeRef) :
    List (String × Value) → List String
| [] => requiredName f
| (name, v) :: rest =>
    if name = f.name then
      if v.isZero s then requiredName f else unset s v
    else
      unsetInField s f rest

end

/- A message misses a required field of some name. -/
def Misses
    (s : ResolvedSchema)
    (required : String) :
    Value → Prop
| message name fields =>
    ∃ m f,
      s.message? name = some m ∧ f ∈ m.fields ∧
        f.name = required ∧ f.optional = false ∧
          ¬ IsSet s fields f.name
| _ => False

variable {s : ResolvedSchema}

/- A field is looked for under its name. -/
theorem unsetInField_eq
    (f : Field TypeRef)
    (fields : List (String × Value)) :
    unsetInField s f fields =
      match fields.lookup f.name with
      | some v =>
          if v.isZero s then requiredName f else unset s v
      | none => requiredName f := by
  induction fields with
  | nil => rw [unsetInField, List.lookup_nil]
  | cons e rest ih =>
      rcases e with ⟨name, v⟩
      rw [unsetInField, List.lookup_cons]
      by_cases hName : name = f.name
      · rw [if_pos hName, beq_iff_eq.mpr hName.symm]
      · rw [if_neg hName, beq_false_of_ne (Ne.symm hName), ih]

theorem mem_requiredName_iff
    {f : Field TypeRef}
    {name : String} :
    name ∈ requiredName f ↔
      f.name = name ∧ f.optional = false := by
  rw [requiredName]
  cases f.optional <;> simp [eq_comm]

theorem not_mem_unsetInElements_iff
    {elements : List Value}
    {name : String} :
    name ∉ unsetInElements s elements ↔
      ∀ v ∈ elements, name ∉ unset s v := by
  induction elements with
  | nil => simp [unsetInElements]
  | cons v rest ih =>
      rw [unsetInElements, List.mem_append, not_or, ih,
        List.forall_mem_cons]

theorem not_mem_unsetInEntries_iff
    {entries : List (MapKey × Value)}
    {name : String} :
    name ∉ unsetInEntries s entries ↔
      ∀ e ∈ entries, name ∉ unset s e.2 := by
  induction entries with
  | nil => simp [unsetInEntries]
  | cons e rest ih =>
      rcases e with ⟨key, v⟩
      rw [unsetInEntries, List.mem_append, not_or, ih,
        List.forall_mem_cons]

/- Nothing is missed in a field that is set, if it has to be. -/
theorem not_mem_unsetInField_iff
    {f : Field TypeRef}
    {fields : List (String × Value)}
    {name : String} :
    name ∉ unsetInField s f fields ↔
      (f.name = name → f.optional = false →
        IsSet s fields f.name) ∧
      ∀ v, fields.lookup f.name = some v →
        v.isZero s = false → name ∉ unset s v := by
  rw [unsetInField_eq]
  cases hLookup : fields.lookup f.name with
  | none => simp [mem_requiredName_iff, IsSet, hLookup]
  | some v =>
      cases hZero : v.isZero s <;>
        simp [mem_requiredName_iff, IsSet, hLookup, hZero]

/-
  A field is not among those that are missed when no message
  at any place misses it.
-/
theorem not_mem_unset_iff
    {type : ResolvedType}
    {v : Value}
    {name : String}
    (h : Conforms s type v) :
    name ∉ unset s v ↔
      Everywhere s (fun _ w => ¬ Misses s name w) type v := by
  induction v using Value.induct generalizing type with
  | number kind word =>
      simp [everywhere_number_iff, unset, Misses]
  | string text => simp [everywhere_string_iff, unset, Misses]
  | enum _ variant => simp [everywhere_enum_iff, unset, Misses]
  | list elements ih =>
      cases h with
      | list hElements =>
          have hHere : ¬ Misses s name (list elements) := id
          rw [unset, not_mem_unsetInElements_iff,
            everywhere_list_iff, and_iff_right hHere]
          exact forall₂_congr fun v hv =>
            ih v hv (hElements v hv)
  | map entries ih =>
      cases h with
      | map _ _ hValues =>
          have hHere : ¬ Misses s name (map entries) := id
          rw [unset, not_mem_unsetInEntries_iff,
            everywhere_map_iff, and_iff_right hHere]
          exact forall₂_congr fun e he =>
            ih e he (hValues e he)
  | message _ fields ih =>
      cases h with
      | @message _ m _ hMessage _ _ _ hValues =>
          have hInside :
              ∀ f ∈ m.fields, ∀ v,
                fields.lookup f.name = some v →
                  (name ∉ unset s v ↔
                    Everywhere s (fun _ w => ¬ Misses s name w)
                      f.type v) := by
            intro f hf v hLookup
            have hMem := Keyed.mem_of_lookup hLookup
            exact ih _ hMem (hValues _ hMem f hf rfl)
          rw [unset, hMessage, everywhere_message_iff hMessage]
          simp only [List.mem_flatMap, not_exists, not_and]
          constructor
          · intro hNone
            refine ⟨?_, ?_⟩
            · intro hMisses
              rcases hMisses with
                ⟨m', f, hFound, hf, hName, hRequired, hUnset⟩
              rw [hMessage] at hFound
              cases hFound
              exact hUnset
                ((not_mem_unsetInField_iff.mp (hNone f hf)).1
                  hName hRequired)
            · intro f hf v hLookup hSet
              exact (hInside f hf v hLookup).mp
                ((not_mem_unsetInField_iff.mp (hNone f hf)).2
                  v hLookup hSet)
          · intro hAll f hf
            rcases hAll with ⟨hMisses, hFields⟩
            refine not_mem_unsetInField_iff.mpr ⟨?_, ?_⟩
            · intro hName hRequired
              by_contra hUnset
              exact hMisses
                ⟨m, f, hMessage, hf, hName, hRequired, hUnset⟩
            · intro v hLookup hSet
              exact (hInside f hf v hLookup).mpr
                (hFields f hf v hLookup hSet)

end Value

end TagWire

------------------------------------------------------------
-- Values Fit to Be Written
------------------------------------------------------------

namespace TagWire

namespace Value

/-
  What a value needs by itself to be written: lengths that fit
  their prefix, and a variant that its enum has.
-/
def Sized
    (s : ResolvedSchema) :
    Value → Prop
| string text => text.utf8ByteSize ≤ maxLength
| enum name variant =>
    ∃ e, s.enum? name = some e ∧ variant ∈ e.variants
| list elements => elements.length ≤ maxLength
| map entries =>
    entries.length ≤ maxLength ∧
      ∀ e ∈ entries, e.1.text.utf8ByteSize ≤ maxLength
| _ => True

/- All that occurs in a value is fit to be written. -/
def Writable
    (s : ResolvedSchema)
    (v : Value) : Prop :=
  ∀ w, Part w v → w.Sized s

variable {s : ResolvedSchema}

theorem writable_number
    {kind : NumKind}
    {word : kind.Word} :
    Writable s (number kind word) := by
  intro w hPart
  cases hPart
  trivial

theorem writable_string_iff
    {text : String} :
    Writable s (string text) ↔
      text.utf8ByteSize ≤ maxLength := by
  constructor
  · exact fun h => h _ .refl
  · intro h w hPart
    cases hPart
    exact h

theorem writable_enum_iff
    {name variant : String} :
    Writable s (enum name variant) ↔
      ∃ e, s.enum? name = some e ∧ variant ∈ e.variants := by
  constructor
  · exact fun h => h _ .refl
  · intro h w hPart
    cases hPart
    exact h

theorem writable_list_iff
    {elements : List Value} :
    Writable s (list elements) ↔
      elements.length ≤ maxLength ∧
        ∀ v ∈ elements, Writable s v := by
  simp only [Writable, part_list_iff, forall_eq_or_imp]
  exact and_congr_right fun _ =>
    ⟨fun h v hv w hPart => h w ⟨v, hv, hPart⟩,
      fun h w hPart =>
        hPart.elim fun v hv => h v hv.1 w hv.2⟩

theorem writable_map_iff
    {entries : List (MapKey × Value)} :
    Writable s (map entries) ↔
      (entries.length ≤ maxLength ∧
        ∀ e ∈ entries, e.1.text.utf8ByteSize ≤ maxLength) ∧
        ∀ e ∈ entries, Writable s e.2 := by
  simp only [Writable, part_map_iff, forall_eq_or_imp]
  exact and_congr_right fun _ =>
    ⟨fun h e he w hPart => h w ⟨e, he, hPart⟩,
      fun h w hPart =>
        hPart.elim fun e he => h e he.1 w he.2⟩

theorem writable_message_iff
    {name : String}
    {fields : List (String × Value)} :
    Writable s (message name fields) ↔
      ∀ e ∈ fields, Writable s e.2 := by
  simp only [Writable, part_message_iff, forall_eq_or_imp]
  rw [and_iff_right (show Sized s (message name fields) from
    trivial)]
  exact
    ⟨fun h e he w hPart => h w ⟨e, he, hPart⟩,
      fun h w hPart =>
        hPart.elim fun e he => h e he.1 w he.2⟩

end Value

end TagWire

------------------------------------------------------------
-- Missing Fields
------------------------------------------------------------

namespace TagWire

namespace Value

variable {s : ResolvedSchema}

/- The error about a field that is not set. -/
def missing
    (name : String) :
    CodecError :=
  .wire (.missingField name)

/- A size is encoded when it fits its prefix. -/
theorem exists_encodeSize_iff
    {n : Nat} :
    (∃ bytes, encodeSize n = .ok bytes) ↔ n ≤ maxLength := by
  simp only [encodeSize_eq_ok_iff, exists_encodeLength_iff]

/- An unset field is an error when it is required. -/
theorem encodeUnset_raises
    (f : Field TypeRef) :
    Outcome.Raises (encodeUnset f)
      ((requiredName f).map missing) := by
  rw [encodeUnset, requiredName]
  split
  · exact .ok
  · exact .error

/- A field raises its own error or those inside it. -/
theorem encodeField_raises
    {f : Field TypeRef}
    {fields : List (String × Value)}
    (hValue :
      ∀ v, fields.lookup f.name = some v →
        Outcome.Raises (encodeAs s f.name f.type v)
          ((unset s v).map missing)) :
    Outcome.Raises (encodeField s f fields)
      ((unsetInField s f fields).map missing) := by
  rw [encodeField_eq, unsetInField_eq]
  cases hLookup : fields.lookup f.name with
  | none => exact encodeUnset_raises f
  | some v =>
      simp only [encodeSet]
      split
      · exact encodeUnset_raises f
      · exact (hValue v hLookup).bind_pure

/- Elements raise their errors one after the other. -/
theorem encodeElements_raises
    {field : String}
    {type : ResolvedType}
    {elements : List Value}
    (hEach :
      ∀ v ∈ elements,
        Outcome.Raises (encodeAs s field type v)
          ((unset s v).map missing)) :
    Outcome.Raises (encodeElements s field type elements)
      ((unsetInElements s elements).map missing) := by
  induction elements with
  | nil =>
      rw [encodeElements, unsetInElements]
      exact .ok
  | cons v rest ih =>
      rcases List.forall_mem_cons.mp hEach with
        ⟨hHead, hRest⟩
      rw [encodeElements, unsetInElements, List.map_append]
      exact hHead.bind fun _ => (ih hRest).bind_pure

/- Entries with keys that are written do likewise. -/
theorem encodeEntries_raises
    {field : String}
    {key : ScalarKind}
    {type : ResolvedType}
    {entries : List (MapKey × Value)}
    (hKeys :
      ∀ e ∈ entries, ∃ bytes, encodeKey key e.1 = .ok bytes)
    (hEach :
      ∀ e ∈ entries,
        Outcome.Raises (encodeAs s field type e.2)
          ((unset s e.2).map missing)) :
    Outcome.Raises (encodeEntries s field key type entries)
      ((unsetInEntries s entries).map missing) := by
  induction entries with
  | nil =>
      rw [encodeEntries, unsetInEntries]
      exact .ok
  | cons e rest ih =>
      rcases e with ⟨k, v⟩
      rcases List.forall_mem_cons.mp hKeys with
        ⟨hKey, hOthers⟩
      rcases List.forall_mem_cons.mp hEach with
        ⟨hHead, hRest⟩
      rw [encodeEntries, unsetInEntries, List.map_append]
      exact Outcome.Raises.ok_bind hKey fun _ =>
        hHead.bind fun _ => (ih hOthers hRest).bind_pure

/-
  A value that is right raises errors about its unset fields,
  and no others.
-/
theorem encodeAs_raises
    {field : String}
    {type : ResolvedType}
    {v : Value}
    (hConforms : Conforms s type v)
    (hWritable : Writable s v) :
    Outcome.Raises (encodeAs s field type v)
      ((unset s v).map missing) := by
  induction v using Value.induct generalizing field type with
  | number kind word =>
      cases hConforms
      rw [unset]
      exact Outcome.raises_of_ok
        (exists_encodeAs_iff.mpr
          (everywhere_number_iff.mpr .number))
  | string text =>
      cases hConforms
      rw [unset]
      have hLength := writable_string_iff.mp hWritable
      exact Outcome.raises_of_ok
        (exists_encodeAs_iff.mpr
          (everywhere_string_iff.mpr (.string hLength)))
  | enum name variant =>
      cases hConforms
      rw [unset]
      rcases writable_enum_iff.mp hWritable with
        ⟨e, hEnum, hVariant⟩
      exact Outcome.raises_of_ok
        (exists_encodeAs_iff.mpr
          (everywhere_enum_iff.mpr (.enum hEnum hVariant)))
  | list elements ih =>
      cases hConforms with
      | list hElements =>
          rcases writable_list_iff.mp hWritable with
            ⟨hLength, hInside⟩
          rw [encodeAs, unset]
          apply Outcome.Raises.ok_bind
          · exact exists_encodeSize_iff.mpr hLength
          · intro size
            apply Outcome.Raises.bind_pure
            exact encodeElements_raises fun v hv =>
              ih v hv (hElements v hv) (hInside v hv)
  | map entries ih =>
      cases hConforms with
      | map _ hKeys hValues =>
          rcases writable_map_iff.mp hWritable with
            ⟨⟨hLength, hTexts⟩, hInside⟩
          rw [encodeAs, unset]
          apply Outcome.Raises.ok_bind
          · exact exists_encodeSize_iff.mpr hLength
          · intro size
            apply Outcome.Raises.bind_pure
            apply encodeEntries_raises
            · exact fun e he =>
                exists_encodeKey_iff.mpr
                  ⟨hKeys e he, hTexts e he⟩
            · exact fun e he =>
                ih e he (hValues e he) (hInside e he)
  | message name fields ih =>
      cases hConforms with
      | @message _ m _ hMessage _ _ _ hValues =>
          have hInside := writable_message_iff.mp hWritable
          rw [encodeAs, encodeFieldsWith, unset, hMessage]
          simp only [List.map_flatMap]
          apply Outcome.Raises.bind_pure
          apply Outcome.raises_mapM
          intro f hf
          apply encodeField_raises
          intro v hLookup
          have hMem := Keyed.mem_of_lookup hLookup
          exact ih _ hMem (hValues _ hMem f hf rfl)
            (hInside _ hMem)

/- A message by itself is encoded as one inside another is. -/
theorem encode_eq_encodeAs
    (field : String)
    {name : String}
    {v : Value}
    (h : Conforms s (.named (.message name)) v) :
    v.encode s =
      encodeAs s field (.named (.message name)) v := by
  cases h
  rw [encode, encodeAs]

/-
  A message with the declared fields only is encoded exactly
  when no message in it misses a required field. Otherwise the
  error is about the first field that is missed. Fields with
  zero values change neither the bytes nor the error.
-/
theorem encode_raises_unset
    {name : String}
    {v : Value}
    (hConforms : Conforms s (.named (.message name)) v)
    (hWritable : Writable s v) :
    ((∃ bytes, v.encode s = .ok bytes) ↔
      Everywhere s (fun _ w => ∀ f, ¬ Misses s f w)
        (.named (.message name)) v) ∧
    ((∃ bytes, v.encode s = .ok bytes) ∨
      ∃ f rest,
        unset s v = f :: rest ∧
          v.encode s = .error (.wire (.missingField f))) ∧
    (∀ f,
      f ∈ unset s v ↔
        ∃ type w,
          Stands s (.named (.message name)) v type w ∧
            Misses s f w) ∧
    (∀ w,
      Conforms s (.named (.message name)) w →
        w.norm s = v.norm s → w.encode s = v.encode s) ∧
    (∀ w, w.isZero s = true ↔ Zero s w) := by
  have hRaises :
      Outcome.Raises
        (encodeAs s name (.named (.message name)) v)
        ((unset s v).map missing) :=
    encodeAs_raises hConforms hWritable
  rw [← encode_eq_encodeAs name hConforms] at hRaises
  have hMem :
      ∀ f,
        f ∈ unset s v ↔
          ∃ type w,
            Stands s (.named (.message name)) v type w ∧
              Misses s f w := by
    intro f
    rw [← not_iff_not, not_mem_unset_iff hConforms]
    simp only [Everywhere, not_exists, not_and]
  refine ⟨?_, ?_, hMem, ?_, fun _ => isZero_iff⟩
  · rw [hRaises.exists_ok_iff, List.map_eq_nil_iff,
      List.eq_nil_iff_forall_not_mem]
    simp only [hMem, Everywhere, not_exists, not_and]
    exact
      ⟨fun h type w hStands f => h f type w hStands,
        fun h f type w hStands => h type w hStands f⟩
  · cases hUnset : unset s v with
    | nil =>
        rw [hUnset] at hRaises
        exact Or.inl (hRaises.exists_ok_iff.mpr rfl)
    | cons f rest =>
        rw [hUnset] at hRaises
        exact Or.inr ⟨f, rest, rfl, hRaises.eq_error⟩
  · intro w hw hSame
    rw [encode_eq_encodeAs name hw,
      encode_eq_encodeAs name hConforms,
      ← encodeAs_norm hw, hSame, encodeAs_norm hConforms]

/- The zero with a sign. -/
def negativeZero : Value :=
  number (.float .float64) 0x8000000000000000

/-
  A response with two hits, the second of which has no URL, and
  an echo in which the query is empty. The score of the first
  hit is a negative zero.
-/
def hollowResponse : Value :=
  message "SearchResponse"
    [
      ("echo",
        message "SearchRequest"
          [
            ("corpus", enum "Corpus" "Universal"),
            ("query", string "")
          ]),
      ("hits",
        list
          [
            message "Hit"
              [("score", negativeZero), ("url", string "u")],
            message "Hit" [("title", string "t")]
          ])
    ]

/- The same without the fields that have zero values. -/
def bareResponse : Value :=
  message "SearchResponse"
    [
      ("echo", message "SearchRequest" []),
      ("hits",
        list
          [
            message "Hit" [("url", string "u")],
            message "Hit" [("title", string "t")]
          ])
    ]

open Sample in
/-
  The hits are declared before the echo, so that the URL is
  missed first.
-/
theorem encode_raises_unset_response :
    Conforms searchSchema (.named (.message "SearchResponse"))
      hollowResponse ∧
    Writable searchSchema hollowResponse ∧
    unset searchSchema hollowResponse = ["url", "query"] ∧
    hollowResponse.encode searchSchema =
      .error (.wire (.missingField "url")) ∧
    (∃ type w,
      Stands searchSchema (.named (.message "SearchResponse"))
          hollowResponse type w ∧
        Misses searchSchema "query" w) ∧
    bareResponse.encode searchSchema =
      hollowResponse.encode searchSchema := by
  have hUrl :
      Conforms searchSchema (.scalar .string) (string "u") :=
    .string
  have hQuery :
      Conforms searchSchema (.scalar .string) (string "") :=
    .string
  have hTitle :
      Conforms searchSchema (.named (.message "Hit"))
        (message "Hit" [("title", string "t")]) := by
    refine .message (m := Hit.declaration) rfl rfl
      (by decide) (by decide) ?_
    have hText :
        Conforms searchSchema (.scalar .string) (string "t") :=
      .string
    simpa [Hit.declaration] using hText
  have hScored :
      Conforms searchSchema (.named (.message "Hit"))
        (message "Hit"
          [("score", negativeZero), ("url", string "u")]) := by
    refine .message (m := Hit.declaration) rfl rfl
      (by decide) (by decide) ?_
    have hScore :
        Conforms searchSchema
          (.scalar (.num (.float .float64))) negativeZero :=
      .number
    simpa [Hit.declaration] using ⟨hScore, hUrl⟩
  have hHit :
      Conforms searchSchema (.named (.message "Hit"))
        (message "Hit" [("url", string "u")]) := by
    refine .message (m := Hit.declaration) rfl rfl
      (by decide) (by decide) ?_
    simpa [Hit.declaration] using hUrl
  have hHits :
      Conforms searchSchema (.list (.named (.message "Hit")))
        (list
          [
            message "Hit"
              [("score", negativeZero), ("url", string "u")],
            message "Hit" [("title", string "t")]
          ]) :=
    .list (by simpa using ⟨hScored, hTitle⟩)
  have hBareHits :
      Conforms searchSchema (.list (.named (.message "Hit")))
        (list
          [
            message "Hit" [("url", string "u")],
            message "Hit" [("title", string "t")]
          ]) :=
    .list (by simpa using ⟨hHit, hTitle⟩)
  have hEcho :
      Conforms searchSchema (.named (.message "SearchRequest"))
        (message "SearchRequest"
          [
            ("corpus", enum "Corpus" "Universal"),
            ("query", string "")
          ]) := by
    refine .message (m := SearchRequest.declaration) rfl rfl
      (by decide) (by decide) ?_
    have hCorpus :
        Conforms searchSchema (.named (.enum "Corpus"))
          (enum "Corpus" "Universal") :=
      .enum
    simpa [SearchRequest.declaration] using ⟨hCorpus, hQuery⟩
  have hBareEcho :
      Conforms searchSchema (.named (.message "SearchRequest"))
        (message "SearchRequest" []) :=
    .message (m := SearchRequest.declaration) rfl rfl
      (by decide) (by decide) (by simp)
  have hConforms :
      Conforms searchSchema
        (.named (.message "SearchResponse")) hollowResponse := by
    refine .message (m := SearchResponse.declaration) rfl rfl
      (by decide) (by decide) ?_
    simpa [SearchResponse.declaration]
      using ⟨hEcho, hHits⟩
  have hBare :
      Conforms searchSchema
        (.named (.message "SearchResponse")) bareResponse := by
    refine .message (m := SearchResponse.declaration) rfl rfl
      (by decide) (by decide) ?_
    simpa [SearchResponse.declaration]
      using ⟨hBareEcho, hBareHits⟩
  have hVariant :
      ∃ e, searchSchema.enum? "Corpus" = some e ∧
        "Universal" ∈ e.variants :=
    ⟨Corpus.declaration, rfl, by decide⟩
  have hTexts :
      "u".utf8ByteSize ≤ maxLength ∧
        "t".utf8ByteSize ≤ maxLength := by
    decide
  have hWritable : Writable searchSchema hollowResponse := by
    simpa [hollowResponse, negativeZero, writable_message_iff,
      writable_list_iff, writable_string_iff,
      writable_enum_iff, writable_number, maxLength, hVariant]
      using hTexts
  have hUnset :
      unset searchSchema hollowResponse = ["url", "query"] :=
    rfl
  rcases encode_raises_unset hConforms hWritable with
    ⟨hOk, hResult, hMissed, hSame, _⟩
  refine ⟨hConforms, hWritable, hUnset, ?_, ?_, ?_⟩
  · rcases hResult with hBytes | ⟨f, rest, hFirst, hError⟩
    · rcases (hMissed "url").mp (by rw [hUnset]; decide) with
        ⟨type, w, hStands, hMisses⟩
      exact absurd hMisses (hOk.mp hBytes type w hStands "url")
    · rw [hUnset] at hFirst
      cases hFirst
      exact hError
  · exact (hMissed "query").mp (by rw [hUnset]; decide)
  · exact hSame bareResponse hBare rfl

end Value

end TagWire
