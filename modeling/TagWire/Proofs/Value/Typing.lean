import TagWire.Proofs.Value.Canonical
import TagWire.Proofs.Value.Conforming

/-
  What is decoded is of the type that it is decoded as. So
  whatever holds of all values of a type holds of what comes
  out of a decoder, at every depth.

  Main declarations:
    * `Value.HasType`
    * `Value.hasType_of_reads`
    * `Value.conforms_of_decode`
    * `Value.exists_conforms_of_part`
-/

------------------------------------------------------------
-- Values That Are Read
------------------------------------------------------------

namespace TagWire

namespace Value

variable {s : ResolvedSchema}

/- The key that is encoded as one of a kind is of the kind. -/
theorem kind_of_encodeKey
    {kind : ScalarKind}
    {key : MapKey}
    {bytes : List UInt8}
    (h : encodeKey kind key = .ok bytes) :
    key.kind = kind := by
  cases key with
  | int k word =>
      rw [encodeKey] at h
      split at h
      · next hKind => exact hKind.symm
      · cases h
  | string text =>
      rw [encodeKey] at h
      split at h
      · next hKind => exact hKind.symm
      · cases h

/- Fields of the declared types make a message. -/
theorem conforms_message_ofList
    (hs : s.WellFormed)
    {m : Message TypeRef}
    (hMessage : m ∈ s.messages)
    {found : List (String × Value)}
    (hNames :
      found.map Prod.fst ⊆ m.fields.map Field.name)
    (hValues :
      ∀ e ∈ found, ∀ f ∈ m.fields,
        f.name = e.1 → Conforms s f.type e.2) :
    Conforms s (.named (.message m.name))
      (message m.name (Keyed.ofList found)) :=
  .message (Schema.message?_of_mem hs hMessage) rfl
    (Keyed.ascending_ofList found)
    (fun _ he =>
      hNames (List.mem_map_of_mem (Keyed.mem_of_mem_ofList he)))
    (fun e he => hValues e (Keyed.mem_of_mem_ofList he))

/- A portion holds values of its type. -/
def HasType
    (s : ResolvedSchema) :
    Portion → Prop
| .value type v => s.Closed type → Conforms s type v
| .elements type vs =>
    s.Closed type → ∀ v ∈ vs, Conforms s type v
| .entries key type bound =>
    s.Closed type →
      ∀ e ∈ bound, e.1.kind = key ∧ Conforms s type e.2
| .fields declared found =>
    (declared.map Field.name).Nodup →
      (∀ f ∈ declared, s.Closed f.type) →
      ∀ e ∈ found, ∀ f ∈ declared,
        f.name = e.1 → Conforms s f.type e.2

/-
  Whatever is read has its type. A field that is found is read
  as the one declared field of its name.
-/
theorem hasType_of_reads
    (hs : s.WellFormed)
    {p : Portion}
    {ahead rest : List UInt8}
    (h : Reads s p ahead rest) :
    HasType s p := by
  induction h with
  | number => exact fun _ => .number
  | string => exact fun _ => .string
  | enum hEnum _ =>
      intro hClosed
      rcases Schema.exists_enum?_of_closed hs hClosed with
        ⟨e', _, hFound, hName⟩
      rw [hEnum] at hFound
      cases hFound
      rw [hName]
      exact .enum
  | list _ _ ih => exact fun hClosed => .list (ih hClosed)
  | map _ _ ih =>
      intro hClosed
      have hBound := ih hClosed.2
      exact .map (Keyed.ascending_ofList _)
        (fun e he => (hBound e (Keyed.mem_of_mem_ofList he)).1)
        (fun e he => (hBound e (Keyed.mem_of_mem_ofList he)).2)
  | @message name m found bytes taken behind rest
      hMessage hFields _ _ ih =>
      intro hClosed
      rcases Schema.exists_message?_of_closed hs hClosed with
        ⟨m', hMem, hFound, hName⟩
      rw [hMessage] at hFound
      cases hFound
      rw [← hName]
      exact conforms_message_ofList hs hMem
        hFields.names.subset
        (ih (hs.fieldNames m hMem) (hs.closed m hMem))
  | elementsNil => exact fun _ v hv => absurd hv List.not_mem_nil
  | elementsCons _ _ ihHead ihTail =>
      intro hClosed
      exact List.forall_mem_cons.mpr
        ⟨ihHead hClosed, ihTail hClosed⟩
  | entriesNil => exact fun _ e he => absurd he List.not_mem_nil
  | entriesCons hKey _ _ ihHead ihTail =>
      intro hClosed
      exact List.forall_mem_cons.mpr
        ⟨⟨kind_of_encodeKey hKey, ihHead hClosed⟩,
          ihTail hClosed⟩
  | fieldsNil =>
      exact fun _ _ e he => absurd he List.not_mem_nil
  | @fieldsSet f declared v found ahead behind rest
      _ hOthers ihValue ihOthers =>
      intro hNodup hClosed
      rcases List.nodup_cons.mp hNodup with ⟨hNew, hNodup⟩
      rcases List.forall_mem_cons.mp hClosed with
        ⟨hHere, hClosed⟩
      refine List.forall_mem_cons.mpr ⟨?_, ?_⟩
      · intro g hg hName
        rcases List.mem_cons.mp hg with rfl | hg
        · exact ihValue hHere
        · have hName : g.name = f.name := hName
          exact absurd (hName ▸ List.mem_map_of_mem hg) hNew
      · intro e he g hg hName
        rcases List.mem_cons.mp hg with rfl | hg
        · have hMem : e.1 ∈ declared.map Field.name :=
            hOthers.names.subset (List.mem_map_of_mem he)
          exact absurd (hName ▸ hMem) hNew
        · exact ihOthers hNodup hClosed e he g hg hName
  | @fieldsUnset f declared found ahead rest
      _ _ hOthers ih =>
      intro hNodup hClosed e he g hg hName
      rcases List.nodup_cons.mp hNodup with ⟨hNew, hNodup⟩
      rcases List.forall_mem_cons.mp hClosed with
        ⟨_, hClosed⟩
      rcases List.mem_cons.mp hg with rfl | hg
      · have hMem : e.1 ∈ declared.map Field.name :=
          hOthers.names.subset (List.mem_map_of_mem he)
        exact absurd (hName ▸ hMem) hNew
      · exact ih hNodup hClosed e he g hg hName

/- What occurs in a value of a type has a type that does. -/
theorem exists_conforms_of_part
    {type : ResolvedType}
    {v w : Value}
    (hPart : Part w v)
    (h : Conforms s type v) :
    ∃ type', s.Reaches type type' ∧ Conforms s type' w := by
  induction hPart generalizing type with
  | refl => exact ⟨type, .refl, h⟩
  | element hMem _ ih =>
      cases h with
      | list hElements =>
          rcases ih (hElements _ hMem) with
            ⟨type', hReaches, hConforms⟩
          exact ⟨type', .element hReaches, hConforms⟩
  | entry hMem _ ih =>
      cases h with
      | map _ _ hValues =>
          rcases ih (hValues _ hMem) with
            ⟨type', hReaches, hConforms⟩
          exact ⟨type', .mapped hReaches, hConforms⟩
  | field hMem _ ih =>
      cases h with
      | message hMessage _ _ hDeclared hValues =>
          rcases List.mem_map.mp (hDeclared _ hMem) with
            ⟨f, hf, hName⟩
          rcases ih (hValues _ hMem f hf hName) with
            ⟨type', hReaches, hConforms⟩
          exact ⟨type', .field hMessage hf hReaches, hConforms⟩

end Value

end TagWire

------------------------------------------------------------
-- Decoded Messages
------------------------------------------------------------

namespace TagWire

namespace Value

open Schema

variable {s : ResolvedSchema}

/- What is decoded as a message is a value of the message. -/
theorem conforms_of_decode
    (hs : s.WellFormed)
    {m : Message TypeRef}
    (hMessage : m ∈ s.messages)
    {data : List UInt8}
    {v : Value}
    (h : decode s m.name data = .ok v) :
    Conforms s (.named (.message m.name)) v := by
  rcases decode_eq_ok_iff.mp h with
    ⟨m', found, rest, hFound, rfl, hFields⟩
  rw [message?_of_mem hs hMessage] at hFound
  cases hFound
  exact conforms_message_ofList hs hMessage
    hFields.names.subset
    (hasType_of_reads hs hFields (hs.fieldNames m hMessage)
      (hs.closed m hMessage))

end Value

end TagWire
