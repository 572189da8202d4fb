import TagWire.Proofs.Typed.Codec
import TagWire.Proofs.Value.Decoding
import TagWire.Typed.Format

/-
  Formats of messages do what the schema's codec does for the
  declarations of the messages: they take the same fields, in
  the same order, and put what was read into a structure.

  Main declarations:
    * `Format.Mirrors`
    * `Format.mirrors_start` and `Format.Mirrors.field`
    * `Format.Mirrors.decode`
    * `Format.Mirrors.encode_message`
-/

------------------------------------------------------------
-- Fields One by One
------------------------------------------------------------

namespace TagWire

namespace Value

/-
  What is read of some fields: those that were found, and the
  tag that stands behind them.
-/
abbrev Found : Type :=
  List (String × Value) × Option UInt8

/- Read a field if its tag was read last. -/
def decodeField
    (s : ResolvedSchema)
    (nested : MessageDecoder)
    (f : Field TypeRef)
    (tag : Option UInt8) :
    Reader CodecError Found :=
  if tag = some f.seq then do
    let v ← decodeAs s nested f.type
    let next ← Reader.tag
    return ([(f.name, v)], next)
  else if f.optional then
    return ([], tag)
  else
    Reader.fail (.wire (.fieldNotFound f.name))

/- Read some fields in order, one behind another. -/
def decodeEach
    (s : ResolvedSchema)
    (nested : MessageDecoder) :
    List (Field TypeRef) → Option UInt8 →
      Reader CodecError Found
| [], tag => return ([], tag)
| f :: rest, tag => do
    let head ← decodeField s nested f tag
    let others ← decodeEach s nested rest head.2
    return (head.1 ++ others.1, others.2)

variable {s : ResolvedSchema}
variable {nested : MessageDecoder}

/- The fields of a message are those found one by one. -/
theorem decodeFields_eq
    (declared : List (Field TypeRef))
    (tag : Option UInt8) :
    decodeFields s nested declared tag =
      Prod.fst <$> decodeEach s nested declared tag := by
  induction declared generalizing tag with
  | nil => simp [decodeFields, decodeEach]
  | cons f rest ih =>
      unfold decodeFields decodeEach decodeField
      split
      · simp [ih]
      · split
        · simp [ih]
        · rfl

/- The last field is read behind those in front. -/
theorem decodeEach_append
    (front : List (Field TypeRef))
    (f : Field TypeRef)
    (tag : Option UInt8) :
    decodeEach s nested (front ++ [f]) tag = (do
      let found ← decodeEach s nested front tag
      let last ← decodeField s nested f found.2
      return (found.1 ++ last.1, last.2)) := by
  induction front generalizing tag with
  | nil => simp [decodeEach]
  | cons f' rest ih => simp [decodeEach, ih]

/- Encode some fields of a message in order. -/
def encodeEach
    (s : ResolvedSchema)
    (declared : List (Field TypeRef))
    (fields : List (String × Value)) :
    Except CodecError (List UInt8) := do
  let parts ← declared.mapM (fun f => encodeField s f fields)
  return parts.flatten

/- The last field is written behind those in front. -/
theorem encodeEach_append
    (front : List (Field TypeRef))
    (f : Field TypeRef)
    (fields : List (String × Value)) :
    encodeEach s (front ++ [f]) fields = (do
      let before ← encodeEach s front fields
      let bytes ← encodeField s f fields
      return before ++ bytes) := by
  simp [encodeEach, List.mapM_append]

end Value

end TagWire

------------------------------------------------------------
-- Mirrors
------------------------------------------------------------

namespace TagWire

namespace Format

open Likeness Value

variable {μ α β : Type}

/- What a structure lacking one more part is made into. -/
def With
    (Made : (String → Option Value) → (β → α) → Prop)
    (name : String)
    (R : Likeness β)
    (zero : β)
    (get : String → Option Value)
    (a : α) : Prop :=
  ∃ make b, Made get make ∧ R.OrZero zero (get name) b ∧
    a = make b

/-
  A format mirrors the first fields of a declaration. `Made`
  says what is made of the fields that are found, and `slots`
  how a structure holds them.
-/
structure Mirrors
    (s : ResolvedSchema)
    (nested : MessageDecoder)
    (front : List (Field TypeRef))
    (f : Format μ α)
    (slots : List (Slot μ))
    (Made : (String → Option Value) → α → Prop) : Prop where
  names : slots.map Slot.name = front.map Field.name
  read :
    ∀ tag,
      Reader.Alike
        (fun found p =>
          found.2 = p.2 ∧
            (found.1.map Prod.fst).Sublist
              (front.map Field.name) ∧
            Made (fun name => found.1.lookup name) p.1)
        (decodeEach s nested front tag)
        (f.read tag)
  encode :
    ∀ fields x,
      (∀ l ∈ slots, l.Holds (fields.lookup l.name) x) →
        encodeEach s front fields =
          (f.encode x).mapError .wire
  onlyFront :
    ∀ get get' a,
      (∀ name ∈ front.map Field.name, get name = get' name) →
        Made get a → Made get' a
  unique : ∀ get a b, Made get a → Made get b → a = b
  total :
    ∀ x, ∃ found : List (String × Value),
      (found.map Prod.fst).Sublist (front.map Field.name) ∧
        ∀ l ∈ slots, l.Holds (found.lookup l.name) x

variable {s : ResolvedSchema}
variable {nested : MessageDecoder}

/- Without fields nothing is added to a structure. -/
theorem mirrors_start
    (s : ResolvedSchema)
    (nested : MessageDecoder)
    (make : α) :
    Mirrors s nested [] (start make : Format μ α) []
      (fun _ a => a = make) where
  names := rfl
  read _ := Reader.alike_pure ⟨rfl, .slnil, rfl⟩
  encode _ _ _ := rfl
  onlyFront _ _ _ _ h := h
  unique _ _ _ h h' := h.trans h'.symm
  total _ := ⟨[], .slnil, fun _ h => absurd h List.not_mem_nil⟩

/- A field that is found, or no field. -/
def single
    (name : String)
    (v? : Option Value) :
    List (String × Value) :=
  v?.toList.map (fun v => (name, v))

/- A field more is found behind those in front. -/
theorem sublist_append_single
    {found : List (String × Value)}
    {front : List (Field TypeRef)}
    (h :
      (found.map Prod.fst).Sublist (front.map Field.name))
    (fld : Field TypeRef)
    (v? : Option Value) :
    ((found ++ single fld.name v?).map Prod.fst).Sublist
      ((front ++ [fld]).map Field.name) := by
  rw [List.map_append, List.map_append]
  apply h.append
  cases v? with
  | none => exact List.nil_sublist _
  | some v => exact List.Sublist.refl _

/- It does not change what other names find. -/
theorem lookup_append_single_of_ne
    {name name' : String}
    (h : name' ≠ name)
    (found : List (String × Value))
    (v? : Option Value) :
    (found ++ single name v?).lookup name' =
      found.lookup name' := by
  have hNone : (single name v?).lookup name' = none := by
    apply Keyed.lookup_eq_none_of_not_mem
    cases v? with
    | none => exact List.not_mem_nil
    | some v => exact fun hMem => h (List.mem_singleton.mp hMem)
  rw [List.lookup_append, hNone, Option.or_none]

/- Its name finds it. -/
theorem lookup_append_single
    {name : String}
    {found : List (String × Value)}
    (h : name ∉ found.map Prod.fst)
    (v? : Option Value) :
    (found ++ single name v?).lookup name = v? := by
  rw [List.lookup_append, Keyed.lookup_eq_none_of_not_mem h,
    Option.none_or]
  cases v? with
  | none => rfl
  | some v => exact List.lookup_cons_self

/- A field is read and put behind those in front. -/
theorem alike_decodeField
    {c : Codec β}
    {R : Likeness β}
    {fld : Field TypeRef}
    (h : c.Mirrors s nested fld.type R)
    (tag : Option UInt8) :
    Reader.Alike
      (fun found p =>
        found.2 = p.2 ∧
          ∃ v?, found.1 = single fld.name v? ∧
            R.OrZero c.zero v? p.1)
      (decodeField s nested fld tag)
      (FieldSpec.read ⟨fld.seq, fld.name, fld.optional⟩ c
        tag) := by
  unfold decodeField FieldSpec.read
  by_cases hTag : tag = some fld.seq
  · rw [if_pos hTag, if_pos hTag]
    refine Reader.alike_bind h.read fun v b hb => ?_
    refine Reader.alike_bind Reader.alike_tag ?_
    intro next _ h
    rcases h with rfl
    exact Reader.alike_pure ⟨rfl, some v, rfl, hb⟩
  · rw [if_neg hTag, if_neg hTag]
    cases hOptional : fld.optional with
    | true =>
        rw [if_pos rfl, if_pos rfl]
        exact Reader.alike_pure ⟨rfl, none, rfl, rfl⟩
    | false =>
        rw [if_neg Bool.false_ne_true,
          if_neg Bool.false_ne_true]
        exact Reader.alike_fail _

/- A field is written alike, be it set or left out. -/
theorem encodeField_mirror
    {c : Codec β}
    {R : Likeness β}
    (fld : Field TypeRef)
    {fields : List (String × Value)}
    {b : β}
    (hZero : c.isZero c.zero = true)
    (hSet : ∀ v, R v b → v.isZero s = c.isZero b)
    (hEncode :
      ∀ v, R v b →
        encodeAs s fld.name fld.type v =
          (c.encode b).mapError .wire)
    (hb : R.OrZero c.zero (fields.lookup fld.name) b) :
    encodeField s fld fields =
      (FieldSpec.encode ⟨fld.seq, fld.name, fld.optional⟩ c
        b).mapError .wire := by
  have hUnset :
      encodeUnset fld =
        (FieldSpec.encodeUnset
          ⟨fld.seq, fld.name, fld.optional⟩).mapError .wire := by
    unfold encodeUnset FieldSpec.encodeUnset
    cases fld.optional <;> rfl
  rw [encodeField_eq, FieldSpec.encode]
  cases hLookup : fields.lookup fld.name with
  | none =>
      rw [hLookup] at hb
      obtain rfl := hb
      rw [if_pos hZero]
      exact hUnset
  | some v =>
      rw [hLookup] at hb
      show encodeSet s fld v = _
      rw [encodeSet, hSet v hb]
      cases c.isZero b with
      | true => exact hUnset
      | false =>
          rw [if_neg Bool.false_ne_true,
            if_neg Bool.false_ne_true, hEncode v hb,
            Outcome.mapError_bind]
          rfl

/- A format that mirrors does so with one more field. -/
theorem Mirrors.field
    {front : List (Field TypeRef)}
    {f : Format μ (β → α)}
    {slots : List (Slot μ)}
    {Made : (String → Option Value) → (β → α) → Prop}
    (hFront : Mirrors s nested front f slots Made)
    (fld : Field TypeRef)
    (get : μ → β)
    {c : Codec β}
    {R : Likeness β}
    (hNew : fld.name ∉ front.map Field.name)
    (h : c.MirrorsField s nested fld.type R) :
    Mirrors s nested (front ++ [fld])
      (f.field ⟨fld.seq, fld.name, fld.optional⟩ c get)
      (slots ++ [.of fld.name R c.zero get])
      (With Made fld.name R c.zero) where
  names := by
    rw [List.map_append, List.map_append, hFront.names]
    rfl
  read tag := by
    rw [decodeEach_append]
    refine Reader.alike_bind (hFront.read tag) ?_
    intro front front' hAlike
    rcases front with ⟨found, next⟩
    rcases front' with ⟨make, _⟩
    rcases hAlike with ⟨rfl, hNames, hMade⟩
    refine Reader.alike_bind
      (alike_decodeField h.mirrors next) ?_
    intro field field' hAlike
    rcases field with ⟨_, last⟩
    rcases field' with ⟨b, _⟩
    rcases hAlike with ⟨rfl, v?, rfl, hb⟩
    refine Reader.alike_pure ⟨rfl, ?_, make, b, ?_, ?_, rfl⟩
    · exact sublist_append_single hNames fld v?
    · refine hFront.onlyFront _ _ make ?_ hMade
      intro name hName
      have hNe : name ≠ fld.name := fun h => hNew (h ▸ hName)
      exact (lookup_append_single_of_ne hNe found v?).symm
    · have hNotFound := fun h => hNew (hNames.subset h)
      show R.OrZero c.zero (List.lookup fld.name _) b
      rwa [lookup_append_single hNotFound]
  encode fields x hSlots := by
    rcases List.forall_mem_append.mp hSlots with
      ⟨hHolds, hLast⟩
    have hb := List.forall_mem_singleton.mp hLast
    rw [encodeEach_append, hFront.encode fields x hHolds,
      encodeField_mirror fld h.zero
        (fun v => h.mirrors.isZero v _)
        (fun v => h.mirrors.encode _ v _) hb]
    simp only [Format.field, Outcome.mapError_bind]
    rfl
  onlyFront := by
    intro lookup lookup' _ hSame hBoth
    rcases hBoth with ⟨make, b, hMade, hb, rfl⟩
    rw [List.map_append] at hSame
    rcases List.forall_mem_append.mp hSame with
      ⟨hNames, hLast⟩
    refine ⟨make, b, ?_, ?_, rfl⟩
    · exact hFront.onlyFront lookup lookup' make hNames hMade
    · rwa [← List.forall_mem_singleton.mp hLast]
  unique := by
    intro lookup _ _ hBoth hBoth'
    rcases hBoth with ⟨make, b, hMade, hb, rfl⟩
    rcases hBoth' with ⟨make', b', hMade', hb', rfl⟩
    rw [hFront.unique lookup make make' hMade hMade',
      h.faithful.unique hb hb']
  total x := by
    rcases hFront.total x with ⟨found, hNames, hHolds⟩
    rcases h.faithful.total (get x) with ⟨v?, hb⟩
    refine ⟨found ++ single fld.name v?, ?_, ?_⟩
    · exact sublist_append_single hNames fld v?
    · refine List.forall_mem_append.mpr ⟨?_, ?_⟩
      · intro p hp
        have hName : p.name ∈ front.map Field.name :=
          hFront.names ▸ List.mem_map_of_mem hp
        have hNe : p.name ≠ fld.name := fun h => hNew (h ▸ hName)
        rw [lookup_append_single_of_ne hNe]
        exact hHolds p hp
      · refine List.forall_mem_singleton.mpr ?_
        have hNotFound := fun h => hNew (hNames.subset h)
        show R.OrZero c.zero (List.lookup fld.name _) (get x)
        rwa [lookup_append_single hNotFound]

------------------------------------------------------------
-- Messages
------------------------------------------------------------

section

variable {name : String}
variable {m : Message TypeRef}
variable {f : Format μ μ}
variable {slots : List (Slot μ)}
variable {Made : (String → Option Value) → μ → Prop}

/- A message is like a structure if it is made into it. -/
theorem Mirrors.message_ofList
    (h : Mirrors s nested m.fields f slots Made)
    (hNodup : (m.fields.map Field.name).Nodup)
    {found : List (String × Value)}
    (hNames :
      (found.map Prod.fst).Sublist (m.fields.map Field.name))
    {x : μ}
    (hHolds :
      ∀ l ∈ slots, l.Holds (found.lookup l.name) x) :
    Likeness.message name slots
      (.message name (Keyed.ofList found)) x := by
  refine ⟨_, rfl, Keyed.ascending_ofList found, ?_, ?_⟩
  · intro e he
    rw [h.names]
    apply hNames.subset
    exact List.mem_map_of_mem (Keyed.mem_of_mem_ofList he)
  · intro p hp
    rw [Keyed.lookup_ofList_of_nodup (hNames.nodup hNodup)]
    exact hHolds p hp

/- What is read is a message and a structure like it. -/
theorem Mirrors.decode
    (h : Mirrors s nested m.fields f slots Made)
    (hMessage : s.message? name = some m)
    (hName : m.name = name)
    (hNodup : (m.fields.map Field.name).Nodup)
    (hMade :
      ∀ get x, Made get x ↔
        ∀ l ∈ slots, l.Holds (get l.name) x)
    (data : List UInt8) :
    Outcome.Alike (Likeness.message name slots)
      (decodeWith s nested name data) (f.decode data) := by
  have hBody :
      Reader.Alike
        (fun (found : List (String × Value)) x =>
          (found.map Prod.fst).Sublist
              (m.fields.map Field.name) ∧
            Made (fun name => found.lookup name) x)
        (decodeBody s nested m.fields)
        (do
          let tag ← Reader.tag
          let last ← f.read.run tag
          return last.1) := by
    refine Reader.alike_bind Reader.alike_tag ?_
    intro tag _ hSame
    rcases hSame with rfl
    rw [decodeFields_eq, map_eq_pure_bind]
    refine Reader.alike_bind (h.read tag) ?_
    intro found made hAlike
    rcases made with ⟨x, _⟩
    rcases hAlike with ⟨_, hNames, hx⟩
    exact Reader.alike_pure ⟨hNames, hx⟩
  rw [decodeWith_of_message? hMessage, hName]
  refine (hBody.eval data).map ?_
  intro found x hAlike
  rcases hAlike with ⟨hNames, hx⟩
  exact h.message_ofList hNodup hNames ((hMade _ x).mp hx)

/- What is like a structure is written as it is. -/
theorem Mirrors.encode_message
    (h : Mirrors s nested m.fields f slots Made)
    (hMessage : s.message? name = some m)
    {v : Value}
    {x : μ}
    (hLike : Likeness.message name slots v x) :
    v.encode s = (f.encode x).mapError .wire := by
  rcases hLike with ⟨fields, rfl, _, _, hHolds⟩
  rw [← h.encode fields x hHolds, Value.encode,
    encodeFieldsWith, hMessage]
  rfl

/- What is made of fields is like what they are found in. -/
theorem Mirrors.faithful
    (h : Mirrors s nested m.fields f slots Made)
    (hNodup : (m.fields.map Field.name).Nodup)
    (hMade :
      ∀ get x, Made get x ↔
        ∀ l ∈ slots, l.Holds (get l.name) x) :
    Faithful (Likeness.message name slots) where
  total x := by
    rcases h.total x with ⟨found, hNames, hHolds⟩
    exact ⟨_, h.message_ofList hNodup hNames hHolds⟩
  unique := by
    intro _ x y hLike hLike'
    rcases hLike with ⟨fields, rfl, _, _, hx⟩
    rcases hLike' with ⟨_, hSame, _, _, hy⟩
    cases hSame
    exact h.unique (fun name => fields.lookup name) x y
      ((hMade _ x).mpr hx) ((hMade _ y).mpr hy)

end

end Format

end TagWire

------------------------------------------------------------
-- Agreement
------------------------------------------------------------

namespace TagWire

open Value

/-
  The codec of a type of messages agrees with the schema's
  codec for the message of a name. They read the same from any
  bytes: a value and a structure that it is like, or the same
  fault. They write what is alike to the same bytes, or fail
  alike. Every structure has a value like it, and no value is
  like two of them.
-/
structure CodecsAgree
    (s : ResolvedSchema)
    (name : String)
    (μ : Type)
    [WireMessage μ]
    (R : Likeness μ) : Prop where
  decode :
    ∀ data,
      Outcome.Alike R (Value.decode s name data)
        (WireMessage.decode data)
  encode :
    ∀ v x, R v x →
      v.encode s = (WireMessage.encode x).mapError .wire
  faithful : Likeness.Faithful R

variable {s : ResolvedSchema}
variable {name : String}
variable {μ : Type}
variable {slots : List (Likeness.Slot μ)}

/- A format that mirrors a declaration makes codecs agree. -/
theorem Format.Mirrors.codecsAgree
    {m : Message TypeRef}
    {f : Format μ μ}
    {Made : (String → Option Value) → μ → Prop}
    (h : f.Mirrors s (Value.decode s) m.fields slots Made)
    (hMessage : s.message? name = some m)
    (hName : m.name = name)
    (hNodup : (m.fields.map Field.name).Nodup)
    (hMade :
      ∀ get x, Made get x ↔
        ∀ l ∈ slots, l.Holds (get l.name) x) :
    @CodecsAgree s name μ (f.wireMessage name)
      (Likeness.message name slots) :=
  letI := f.wireMessage name
  {
    decode := by
      intro data
      rw [decode_eq]
      exact h.decode hMessage hName hNodup hMade data
    encode := fun _ _ hLike => h.encode_message hMessage hLike
    faithful := h.faithful hNodup hMade
  }

/- Codecs that agree also do inside other messages. -/
theorem CodecsAgree.mirrors
    [WireMessage μ]
    [Inhabited μ]
    (h : CodecsAgree s name μ (Likeness.message name slots)) :
    (Codec.message μ).Mirrors s (Value.decode s)
      (.named (.message name)) (Likeness.message name slots) :=
  Codec.mirrors_nested
    (fun _ _ ⟨fields, hSame, _⟩ => ⟨fields, hSame⟩)
    h.encode h.decode

end TagWire
