import TagWire.Proofs.Value.Conforming

/-
  Where the messages in a value stand in its encoding, and
  what the bytes there have to be like, so that no byte behind
  a field is mistaken for the tag of another one.

  Main declarations:
    * `Value.Inside`
    * `Value.Occurs`
    * `Value.Undisturbed`
    * `Value.undisturbed_list_iff`
    * `Value.undisturbed_map_iff`
    * `Value.undisturbed_message_iff`
-/

------------------------------------------------------------
-- Places
------------------------------------------------------------

namespace TagWire

namespace Value

/-
  A value stands directly in another one: so many bytes behind
  the start of the outer encoding its own encoding starts.
-/
inductive Inside
    (s : ResolvedSchema) :
    ResolvedType → Value → Nat → ResolvedType → Value → Prop
| element
    {field : String}
    {element : ResolvedType}
    {front back : List Value}
    {v : Value}
    {bytes : List UInt8}
    (hFront :
      encodeElements s field element front = .ok bytes) :
    Inside s (.list element) (.list (front ++ v :: back))
      (4 + bytes.length) element v
| entry
    {field : String}
    {key : ScalarKind}
    {type : ResolvedType}
    {front back : List (MapKey × Value)}
    {e : MapKey × Value}
    {bytes keyBytes : List UInt8}
    (hFront :
      encodeEntries s field key type front = .ok bytes)
    (hKey : encodeKey key e.1 = .ok keyBytes) :
    Inside s (.map key type) (.map (front ++ e :: back))
      (4 + (bytes.length + keyBytes.length)) type e.2
| field
    {declared name : String}
    {fields : List (String × Value)}
    {m : Message TypeRef}
    {before after : List (Field TypeRef)}
    {f : Field TypeRef}
    {parts : List (List UInt8)}
    {v : Value}
    (hMessage : s.message? name = some m)
    (hSplit : m.fields = before ++ f :: after)
    (hBefore :
      before.mapM (fun g => encodeField s g fields) =
        .ok parts)
    (hField : fields.lookup f.name = some v)
    (hSet : v.isZero s = false) :
    Inside s (.named (.message declared))
      (.message name fields) (parts.flatten.length + 1)
      f.type v

/-
  A value stands somewhere in another one, itself included:
  so many bytes behind the start of the outer encoding.
-/
inductive Occurs
    (s : ResolvedSchema) :
    ResolvedType → Value → Nat → Value → Prop
| here
    {type : ResolvedType}
    {v : Value} :
    Occurs s type v 0 v
| inside
    {type inner : ResolvedType}
    {v v' w : Value}
    {offset start : Nat}
    (hInside : Inside s type v offset inner v')
    (h : Occurs s inner v' start w) :
    Occurs s type v (offset + start) w

/-
  In some bytes that start with a message, no byte is mistaken
  for the tag of a field that the normal form of the message
  leaves unset. The tag of a field would stand right behind
  the fields declared before it.
-/
def Unmistaken
    (s : ResolvedSchema)
    (name : String)
    (fields : List (String × Value))
    (data : List UInt8) : Prop :=
  ∀ m before f after parts,
    s.message? name = some m →
    m.fields = before ++ f :: after →
    before.mapM (fun g => encodeField s g fields) =
      .ok parts →
    ((message name fields).norm s).get? f.name = none →
    data[parts.flatten.length]? ≠ some f.seq

/-
  In some bytes that start with a value, nothing is mistaken
  for a tag, in any message that occurs in the value.
-/
def Undisturbed
    (s : ResolvedSchema)
    (type : ResolvedType)
    (v : Value)
    (data : List UInt8) : Prop :=
  ∀ start name fields,
    Occurs s type v start (message name fields) →
    Unmistaken s name fields (data.drop start)

end Value

end TagWire

------------------------------------------------------------
-- Places in Values
------------------------------------------------------------

namespace TagWire

namespace Value

variable {s : ResolvedSchema}
variable {data : List UInt8}

/- Places are those at the start and those further inside. -/
theorem undisturbed_iff
    {type : ResolvedType}
    {v : Value} :
    Undisturbed s type v data ↔
      (∀ name fields, v = message name fields →
        Unmistaken s name fields data) ∧
      (∀ offset inner v', Inside s type v offset inner v' →
        Undisturbed s inner v' (data.drop offset)) := by
  constructor
  · intro h
    refine ⟨?_, ?_⟩
    · intro name fields hSame
      rcases hSame with rfl
      exact h 0 name fields .here
    · intro offset inner v' hInside start name fields hOccurs
      rw [List.drop_drop]
      exact h _ name fields (.inside hInside hOccurs)
  · intro h start name fields hOccurs
    rcases h with ⟨hHere, hInside⟩
    cases hOccurs with
    | here => exact hHere name fields rfl
    | inside hFirst hRest =>
        rw [← List.drop_drop]
        exact hInside _ _ _ hFirst _ name fields hRest

theorem undisturbed_number
    {type : ResolvedType}
    {kind : NumKind}
    {word : kind.Word} :
    Undisturbed s type (number kind word) data := by
  refine undisturbed_iff.mpr ⟨by simp, ?_⟩
  intro offset inner v' hInside
  cases hInside

theorem undisturbed_string
    {type : ResolvedType}
    {text : String} :
    Undisturbed s type (string text) data := by
  refine undisturbed_iff.mpr ⟨by simp, ?_⟩
  intro offset inner v' hInside
  cases hInside

theorem undisturbed_enum
    {type : ResolvedType}
    {name variant : String} :
    Undisturbed s type (enum name variant) data := by
  refine undisturbed_iff.mpr ⟨by simp, ?_⟩
  intro offset inner v' hInside
  cases hInside

------------------------------------------------------------
-- Places in Lists
------------------------------------------------------------

/- A place in a list is at its head or in its tail. -/
theorem forall_split_cons_iff
    {α : Type}
    {P : List α → α → Prop}
    {a : α}
    {as : List α} :
    (∀ front b back, a :: as = front ++ b :: back →
        P front b) ↔
      P [] a ∧
        ∀ front b back, as = front ++ b :: back →
          P (a :: front) b := by
  constructor
  · intro h
    refine ⟨h [] a as rfl, ?_⟩
    intro front b back hSplit
    rcases hSplit with rfl
    exact h (a :: front) b back rfl
  · intro h front b back hSplit
    rcases h with ⟨hHead, hTail⟩
    cases front with
    | nil =>
        cases hSplit
        exact hHead
    | cons a' front =>
        cases hSplit
        exact hTail front b back rfl

/- Nothing is mistaken for a tag in any of some elements. -/
def ElementsUndisturbed
    (s : ResolvedSchema)
    (element : ResolvedType)
    (vs : List Value)
    (data : List UInt8) : Prop :=
  ∀ front v back, vs = front ++ v :: back →
    ∀ field bytes,
      encodeElements s field element front = .ok bytes →
      Undisturbed s element v (data.drop bytes.length)

theorem elementsUndisturbed_nil
    {element : ResolvedType} :
    ElementsUndisturbed s element [] data := by
  intro front v back hSplit
  simp at hSplit

/- Elements follow one another. -/
theorem elementsUndisturbed_cons_iff
    {field : String}
    {element : ResolvedType}
    {v : Value}
    {vs : List Value}
    {head : List UInt8}
    (hHead : encodeAs s field element v = .ok head) :
    ElementsUndisturbed s element (v :: vs) (head ++ data) ↔
      Undisturbed s element v (head ++ data) ∧
        ElementsUndisturbed s element vs data := by
  unfold ElementsUndisturbed
  rw [forall_split_cons_iff]
  refine and_congr ?_ ?_
  · simp [encodeElements]
  · constructor
    · intro h front w back hSplit field' bytes hFront
      have hHead' :
          encodeAs s field' element v = .ok head :=
        encodeAs_eq_ok_of_eq_ok hHead
      have hDrop :=
        h front w back hSplit field' (head ++ bytes)
          (encodeElements_cons_eq_ok_iff.mpr
            ⟨head, bytes, hHead', hFront, rfl⟩)
      rwa [List.length_append,
        List.drop_length_add_append] at hDrop
    · intro h front w back hSplit field' bytes hFront
      rcases encodeElements_cons_eq_ok_iff.mp hFront with
        ⟨head', bytes', hHead', hFront', rfl⟩
      rw [encodeAs_eq_ok_of_eq_ok hHead] at hHead'
      cases hHead'
      rw [List.length_append, List.drop_length_add_append]
      exact h front w back hSplit field' bytes' hFront'

/- Elements stand behind the size of the list. -/
theorem undisturbed_list_iff
    {element : ResolvedType}
    {vs : List Value}
    {size : List UInt8}
    (hSize : size.length = 4) :
    Undisturbed s (.list element) (list vs) (size ++ data) ↔
      ElementsUndisturbed s element vs data := by
  rw [undisturbed_iff]
  constructor
  · intro h front v back hSplit field bytes hFront
    rcases h with ⟨_, hInside⟩
    cases hSplit
    have h := hInside _ _ _ (.element hFront)
    rwa [← hSize, List.drop_length_add_append] at h
  · intro h
    refine ⟨by simp, ?_⟩
    intro offset inner v' hInside
    cases hInside with
    | element hFront =>
        rw [← hSize, List.drop_length_add_append]
        exact h _ _ _ rfl _ _ hFront

------------------------------------------------------------
-- Places in Maps
------------------------------------------------------------

/- Nothing is mistaken for a tag in any of some entries. -/
def EntriesUndisturbed
    (s : ResolvedSchema)
    (key : ScalarKind)
    (type : ResolvedType)
    (entries : List (MapKey × Value))
    (data : List UInt8) : Prop :=
  ∀ front e back, entries = front ++ e :: back →
    ∀ field bytes keyBytes,
      encodeEntries s field key type front = .ok bytes →
      encodeKey key e.1 = .ok keyBytes →
      Undisturbed s type e.2
        (data.drop (bytes.length + keyBytes.length))

theorem entriesUndisturbed_nil
    {key : ScalarKind}
    {type : ResolvedType} :
    EntriesUndisturbed s key type [] data := by
  intro front e back hSplit
  simp at hSplit

/- Entries follow one another, values behind their keys. -/
theorem entriesUndisturbed_cons_iff
    {field : String}
    {key : ScalarKind}
    {type : ResolvedType}
    {e : MapKey × Value}
    {entries : List (MapKey × Value)}
    {front head : List UInt8}
    (hKey : encodeKey key e.1 = .ok front)
    (hHead : encodeAs s field type e.2 = .ok head) :
    EntriesUndisturbed s key type (e :: entries)
        (front ++ (head ++ data)) ↔
      Undisturbed s type e.2 (head ++ data) ∧
        EntriesUndisturbed s key type entries data := by
  unfold EntriesUndisturbed
  rw [forall_split_cons_iff]
  refine and_congr ?_ ?_
  · simp [encodeEntries, hKey]
  · constructor
    · intro h before e' back hSplit field' bytes keyBytes
        hBefore hKey'
      have hHead' :
          encodeAs s field' type e.2 = .ok head :=
        encodeAs_eq_ok_of_eq_ok hHead
      have hDrop :=
        h before e' back hSplit field'
          (front ++ (head ++ bytes)) keyBytes
          (encodeEntries_cons_eq_ok_iff.mpr
            ⟨front, head, bytes, hKey, hHead', hBefore, rfl⟩)
          hKey'
      rwa [List.length_append, List.length_append,
        Nat.add_assoc, Nat.add_assoc,
        List.drop_length_add_append,
        List.drop_length_add_append] at hDrop
    · intro h before e' back hSplit field' bytes keyBytes
        hBefore hKey'
      rcases encodeEntries_cons_eq_ok_iff.mp hBefore with
        ⟨front', head', bytes', hFront', hHead', hBefore',
         rfl⟩
      rw [hKey] at hFront'
      cases hFront'
      rw [encodeAs_eq_ok_of_eq_ok hHead] at hHead'
      cases hHead'
      rw [List.length_append, List.length_append,
        Nat.add_assoc, Nat.add_assoc,
        List.drop_length_add_append,
        List.drop_length_add_append]
      exact h before e' back hSplit field' bytes' keyBytes
        hBefore' hKey'

/- Entries stand behind the size of the map. -/
theorem undisturbed_map_iff
    {key : ScalarKind}
    {type : ResolvedType}
    {entries : List (MapKey × Value)}
    {size : List UInt8}
    (hSize : size.length = 4) :
    Undisturbed s (.map key type) (map entries)
        (size ++ data) ↔
      EntriesUndisturbed s key type entries data := by
  rw [undisturbed_iff]
  constructor
  · intro h front e back hSplit field bytes keyBytes hFront hKey
    rcases h with ⟨_, hInside⟩
    cases hSplit
    have h := hInside _ _ _ (.entry hFront hKey)
    rwa [← hSize, List.drop_length_add_append] at h
  · intro h
    refine ⟨by simp, ?_⟩
    intro offset inner v' hInside
    cases hInside with
    | entry hFront hKey =>
        rw [← hSize, List.drop_length_add_append]
        exact h _ _ _ rfl _ _ _ hFront hKey

------------------------------------------------------------
-- Places in Messages
------------------------------------------------------------

/-
  In some bytes that start where a field would, its tag stands
  only if the field is set, and then its value behind it.
-/
def FieldUndisturbed
    (s : ResolvedSchema)
    (fields : List (String × Value))
    (f : Field TypeRef)
    (data : List UInt8) : Prop :=
  ((normFields s fields).lookup f.name = none →
    data.head? ≠ some f.seq) ∧
  (∀ v, fields.lookup f.name = some v →
    v.isZero s = false →
    Undisturbed s f.type v (data.drop 1))

/- Nothing is mistaken for a tag in or before some fields. -/
def FieldsUndisturbed
    (s : ResolvedSchema)
    (fields : List (String × Value))
    (declared : List (Field TypeRef))
    (data : List UInt8) : Prop :=
  ∀ before f after, declared = before ++ f :: after →
    ∀ parts,
      before.mapM (fun g => encodeField s g fields) =
        .ok parts →
      FieldUndisturbed s fields f
        (data.drop parts.flatten.length)

theorem fieldsUndisturbed_nil
    {fields : List (String × Value)} :
    FieldsUndisturbed s fields [] data := by
  intro before f after hSplit
  simp at hSplit

/- Fields follow one another. -/
theorem fieldsUndisturbed_cons_iff
    {fields : List (String × Value)}
    {f : Field TypeRef}
    {declared : List (Field TypeRef)}
    {part : List UInt8}
    (hPart : encodeField s f fields = .ok part) :
    FieldsUndisturbed s fields (f :: declared)
        (part ++ data) ↔
      FieldUndisturbed s fields f (part ++ data) ∧
        FieldsUndisturbed s fields declared data := by
  unfold FieldsUndisturbed
  rw [forall_split_cons_iff]
  refine and_congr ?_ ?_
  · simp [pure, Except.pure]
  · simp only [List.mapM_cons, hPart, Outcome.bind_eq_ok_iff,
      Outcome.pure_eq_ok_iff]
    constructor
    · intro h before g after hSplit parts hBefore
      have hDrop :=
        h before g after hSplit (part :: parts)
          ⟨part, rfl, parts, hBefore, rfl⟩
      rwa [List.flatten_cons, List.length_append,
        List.drop_length_add_append] at hDrop
    · intro h before g after hSplit _ hParts
      rcases hParts with ⟨_, hSame, parts, hBefore, rfl⟩
      cases hSame
      rw [List.flatten_cons, List.length_append,
        List.drop_length_add_append]
      exact h before g after hSplit parts hBefore

/- Fields stand behind the ones declared before. -/
theorem undisturbed_message_iff
    {declared name : String}
    {fields : List (String × Value)}
    {m : Message TypeRef}
    (hMessage : s.message? name = some m) :
    Undisturbed s (.named (.message declared))
        (message name fields) data ↔
      FieldsUndisturbed s fields m.fields data := by
  rw [undisturbed_iff]
  constructor
  · intro h before f after hSplit parts hBefore
    rcases h with ⟨hHere, hInside⟩
    refine ⟨?_, ?_⟩
    · intro hUnset
      rw [List.head?_drop]
      exact hHere name fields rfl m before f after parts
        hMessage hSplit hBefore hUnset
    · intro v hField hSet
      rw [List.drop_drop]
      exact hInside _ _ _
        (.field hMessage hSplit hBefore hField hSet)
  · intro h
    refine ⟨?_, ?_⟩
    · intro name' fields' hSame m' before f after parts
        hFound hSplit hBefore hUnset
      cases hSame
      rw [hMessage] at hFound
      cases hFound
      rw [← List.head?_drop]
      exact (h before f after hSplit parts hBefore).1 hUnset
    · intro offset inner v' hInside
      cases hInside with
      | @field _ _ _ m' before after f parts v hFound hSplit
          hBefore hField hSet =>
          rw [hMessage] at hFound
          cases hFound
          rw [← List.drop_drop]
          exact (h before f after hSplit parts hBefore).2
            v' hField hSet

end Value

end TagWire
