import Mathlib
import TagWire.Proofs.Schema.Resolution
import TagWire.Proofs.Value.Typing
import TagWire.Value.Json

/-
  What the JSON form of a value keeps. The names of messages,
  enums and kinds are not in it, but the type of the value
  has them, and numbers written as keys are told apart by the
  kind of the keys. So two values of one type without floats
  have one JSON form only if they are the same.

  Main declarations:
    * `MapKey.eq_of_display`
    * `Value.FloatFree`
    * `Value.isEqual_iff_eq`
    * `Value.eq_of_toJson`
    * `Value.toJson_decode_faithful`
-/

------------------------------------------------------------
-- Members of Objects
------------------------------------------------------------

namespace TagWire

namespace MapKey

/- Keys of one kind are told apart by their texts. -/
theorem eq_of_display
    {a b : MapKey}
    (hKind : a.kind = b.kind)
    (h : a.display = b.display) :
    a = b := by
  cases a with
  | int k word =>
      cases b with
      | int k' word' =>
          cases hKind
          have hValue : k.value word = k.value word' :=
            Int.repr_injective h
          rw [IntKind.value_injective hValue]
      | string text => cases hKind
  | string text =>
      cases b with
      | int k word => cases hKind
      | string text' => exact congrArg string h

end MapKey

namespace Value

theorem jsonElements_eq
    (elements : List Value) :
    jsonElements elements = elements.map toJson := by
  induction elements with
  | nil => rw [jsonElements, List.map_nil]
  | cons v rest ih => rw [jsonElements, ih, List.map_cons]

theorem jsonEntries_eq
    (entries : List (MapKey × Value)) :
    jsonEntries entries =
      entries.map (Prod.map MapKey.display toJson) := by
  induction entries with
  | nil => rw [jsonEntries, List.map_nil]
  | cons e rest ih =>
      rw [jsonEntries, ih, List.map_cons]
      rfl

theorem jsonFields_eq
    (fields : List (String × Value)) :
    jsonFields fields = fields.map (Prod.map id toJson) := by
  induction fields with
  | nil => rw [jsonFields, List.map_nil]
  | cons e rest ih =>
      rw [jsonFields, ih, List.map_cons]
      rfl

/- The keys of a map are different texts. -/
theorem nodup_display
    {key : ScalarKind}
    {entries : List (MapKey × Value)}
    (hAscending : Keyed.Ascending entries)
    (hKeys : ∀ e ∈ entries, e.1.kind = key) :
    ((entries.map (Prod.map MapKey.display toJson)).map
      Prod.fst).Nodup := by
  have hSame :
      (entries.map (Prod.map MapKey.display toJson)).map
          Prod.fst =
        (entries.map Prod.fst).map MapKey.display := by
    rw [List.map_map, List.map_map]
    rfl
  rw [hSame]
  refine List.Nodup.map_on ?_
    (Keyed.nodup_of_ascending hAscending)
  intro a ha b hb hDisplay
  rcases List.mem_map.mp ha with ⟨e, he, rfl⟩
  rcases List.mem_map.mp hb with ⟨e', he', rfl⟩
  exact MapKey.eq_of_display
    ((hKeys e he).trans (hKeys e' he').symm) hDisplay

/- Every entry of a map is a member of its own in JSON. -/
theorem members_of_map
    {s : ResolvedSchema}
    {type : ResolvedType}
    {entries : List (MapKey × Value)}
    (h : Conforms s type (map entries)) :
    ∃ members,
      (map entries).toJson = .object members ∧
        members.length = entries.length ∧
        (members.map Prod.fst).Nodup := by
  cases h with
  | map hAscending hKeys _ =>
      have hNodup := nodup_display hAscending hKeys
      refine ⟨_, by rw [toJson], ?_, ?_⟩
      · rw [jsonEntries_eq,
          (Keyed.perm_ofList_of_nodup hNodup).length_eq,
          List.length_map]
      · exact Keyed.nodup_of_ascending
          (Keyed.ascending_ofList _)

end Value

end TagWire

------------------------------------------------------------
-- Values without Floats
------------------------------------------------------------

namespace TagWire

namespace Value

/- No number in a value is a float. -/
def FloatFree
    (v : Value) : Prop :=
  ∀ kind word, ¬ Part (number (.float kind) word) v

namespace FloatFree

theorem elements
    {vs : List Value}
    (h : FloatFree (list vs))
    {v : Value}
    (hMem : v ∈ vs) :
    FloatFree v :=
  fun kind word hPart => h kind word (.element hMem hPart)

theorem entries
    {entries : List (MapKey × Value)}
    (h : FloatFree (map entries))
    {e : MapKey × Value}
    (hMem : e ∈ entries) :
    FloatFree e.2 :=
  fun kind word hPart => h kind word (.entry hMem hPart)

theorem fields
    {name : String}
    {fields : List (String × Value)}
    (h : FloatFree (message name fields))
    {e : String × Value}
    (hMem : e ∈ fields) :
    FloatFree e.2 :=
  fun kind word hPart => h kind word (.field hMem hPart)

end FloatFree

/- Where a type reaches no float, its values have none. -/
theorem floatFree_of_conforms
    {s : ResolvedSchema}
    {type : ResolvedType}
    (hFloats :
      ∀ kind, ¬ s.Reaches type (.scalar (.num (.float kind))))
    {v : Value}
    (h : Conforms s type v) :
    FloatFree v := by
  intro kind word hPart
  rcases exists_conforms_of_part hPart h with
    ⟨type', hReaches, hConforms⟩
  cases hConforms
  exact hFloats kind hReaches

------------------------------------------------------------
-- Equality
------------------------------------------------------------

/- Integers are equal in the way in which they are the same. -/
theorem isEqualNumber_int_iff
    {k : IntKind}
    {v : NumKind.Word (.int k)}
    {k' : NumKind}
    {w : k'.Word} :
    isEqualNumber (.int k) v k' w = true ↔
      number (.int k) v = number k' w := by
  unfold isEqualNumber
  by_cases hKind : k' = .int k
  · subst hKind
    simp
  · rw [dif_neg hKind]
    constructor
    · exact fun h => nomatch h
    · intro h
      cases h
      exact absurd rfl hKind

theorem isEqualElements_iff
    {vs ws : List Value}
    (hEach : ∀ v ∈ vs, ∀ w, v.isEqual w = true ↔ v = w) :
    isEqualElements vs ws = true ↔ vs = ws := by
  induction vs generalizing ws with
  | nil => cases ws <;> simp [isEqualElements]
  | cons v rest ih =>
      rcases List.forall_mem_cons.mp hEach with
        ⟨hHead, hTail⟩
      cases ws with
      | nil => simp [isEqualElements]
      | cons w others =>
          simp [isEqualElements, hHead, ih hTail]

theorem isEqualEntries_iff
    {vs ws : List (MapKey × Value)}
    (hEach :
      ∀ e ∈ vs, ∀ w, e.2.isEqual w = true ↔ e.2 = w) :
    isEqualEntries vs ws = true ↔ vs = ws := by
  induction vs generalizing ws with
  | nil => cases ws <;> simp [isEqualEntries]
  | cons e rest ih =>
      rcases List.forall_mem_cons.mp hEach with
        ⟨hHead, hTail⟩
      cases ws with
      | nil => simp [isEqualEntries]
      | cons e' others =>
          rcases e with ⟨k, v⟩
          rcases e' with ⟨k', w⟩
          simp [isEqualEntries, hHead, ih hTail]

theorem isEqualFields_iff
    {vs ws : List (String × Value)}
    (hEach :
      ∀ e ∈ vs, ∀ w, e.2.isEqual w = true ↔ e.2 = w) :
    isEqualFields vs ws = true ↔ vs = ws := by
  induction vs generalizing ws with
  | nil => cases ws <;> simp [isEqualFields]
  | cons e rest ih =>
      rcases List.forall_mem_cons.mp hEach with
        ⟨hHead, hTail⟩
      cases ws with
      | nil => simp [isEqualFields]
      | cons e' others =>
          rcases e with ⟨k, v⟩
          rcases e' with ⟨k', w⟩
          simp [isEqualFields, hHead, ih hTail]

/- Values without floats are equal if they are the same. -/
theorem isEqual_iff_eq
    {v w : Value}
    (hFree : FloatFree v) :
    v.isEqual w = true ↔ v = w := by
  induction v using Value.induct generalizing w with
  | number kind word =>
      cases kind with
      | float kind => exact absurd .refl (hFree kind word)
      | int kind =>
          cases w with
          | number kind' word' =>
              rw [isEqual]
              exact isEqualNumber_int_iff
          | _ => simp [isEqual]
  | string text => cases w <;> simp [isEqual]
  | enum name variant => cases w <;> simp [isEqual]
  | list vs ih =>
      cases w with
      | list ws =>
          rw [isEqual, list.injEq]
          exact isEqualElements_iff
            fun v hv w => ih v hv (hFree.elements hv)
      | _ => simp [isEqual]
  | map vs ih =>
      cases w with
      | map ws =>
          rw [isEqual, map.injEq]
          exact isEqualEntries_iff
            fun e he w => ih e he (hFree.entries he)
      | _ => simp [isEqual]
  | message name vs ih =>
      cases w with
      | message name' ws =>
          rw [isEqual, Bool.and_eq_true, beq_iff_eq,
            message.injEq]
          exact and_congr_right fun _ =>
            isEqualFields_iff
              fun e he w => ih e he (hFree.fields he)
      | _ => simp [isEqual]

end Value

end TagWire

------------------------------------------------------------
-- Values of One Type
------------------------------------------------------------

namespace TagWire

namespace Value

variable {s : ResolvedSchema}

/- The names of fields stay what they are. -/
theorem nodup_names
    {fields : List (String × Value)}
    (hAscending : Keyed.Ascending fields) :
    ((fields.map (Prod.map id toJson)).map Prod.fst).Nodup := by
  rw [List.map_map]
  exact Keyed.nodup_of_ascending hAscending

/- Elements are told apart by JSON if each is. -/
theorem eq_of_map_toJson
    {vs ws : List Value}
    (hEach :
      ∀ v ∈ vs, ∀ w ∈ ws, v.toJson = w.toJson → v = w)
    (h : vs.map toJson = ws.map toJson) :
    vs = ws := by
  induction vs generalizing ws with
  | nil => exact (List.map_eq_nil_iff.mp h.symm).symm
  | cons v rest ih =>
      cases ws with
      | nil => cases h
      | cons w others =>
          rcases List.cons.inj h with ⟨hHead, hTail⟩
          have hSame :=
            hEach v List.mem_cons_self w List.mem_cons_self
              hHead
          have hRest :=
            ih
              (fun v hv w hw =>
                hEach v (List.mem_cons_of_mem _ hv) w
                  (List.mem_cons_of_mem _ hw))
              hTail
          rw [hSame, hRest]

/-
  Values of one type without floats have different JSON forms
  if they are different. By induction on one of them: the type
  says what the other one is made of.
-/
theorem eq_of_toJson
    {type : ResolvedType}
    {v w : Value}
    (hFree : FloatFree v)
    (hv : Conforms s type v)
    (hw : Conforms s type w)
    (h : v.toJson = w.toJson) :
    v = w := by
  induction v using Value.induct generalizing type w with
  | number kind word =>
      cases kind with
      | float kind => exact absurd .refl (hFree kind word)
      | int kind =>
          cases hv
          cases hw with
          | @number _ word' =>
              rw [toJson, toJson] at h
              have hValue :
                  kind.value word = kind.value word' :=
                Json.int.inj h
              rw [IntKind.value_injective hValue]
  | string text =>
      cases hv
      cases hw
      rw [toJson, toJson] at h
      rw [Json.string.inj h]
  | enum name variant =>
      cases hv
      cases hw
      rw [toJson, toJson] at h
      rw [Json.string.inj h]
  | list vs ih =>
      cases hv with
      | list hVs =>
          cases hw with
          | @list _ ws hWs =>
              rw [toJson, toJson, jsonElements_eq,
                jsonElements_eq] at h
              refine congrArg list
                (eq_of_map_toJson ?_ (Json.array.inj h))
              exact fun v hv w hw =>
                ih v hv (hFree.elements hv) (hVs v hv)
                  (hWs w hw)
  | map vs ih =>
      cases hv with
      | map hAscending hKeys hVs =>
          cases hw with
          | @map _ _ ws hAscending' hKeys' hWs =>
              rw [toJson, toJson, jsonEntries_eq,
                jsonEntries_eq] at h
              refine congrArg map
                (Keyed.eq_of_ofList_map hAscending hAscending'
                  ⟨nodup_display hAscending hKeys,
                    nodup_display hAscending' hKeys'⟩
                  ?_ (Json.object.inj h))
              intro e he e' he' hSame
              rcases Prod.ext_iff.mp hSame with
                ⟨hDisplay, hValue⟩
              have hKind : e.1.kind = e'.1.kind :=
                (hKeys e he).trans (hKeys' e' he').symm
              exact Prod.ext
                (MapKey.eq_of_display hKind hDisplay)
                (ih e he (hFree.entries he) (hVs e he)
                  (hWs e' he') hValue)
  | message name vs ih =>
      cases hv with
      | @message _ m _ hMessage _ hAscending hDeclared hVs =>
          cases hw with
          | @message _ m' ws hMessage' _ hAscending' _ hWs =>
              rw [hMessage] at hMessage'
              cases hMessage'
              rw [toJson, toJson, jsonFields_eq,
                jsonFields_eq] at h
              refine congrArg (message name)
                (Keyed.eq_of_ofList_map hAscending hAscending'
                  ⟨nodup_names hAscending,
                    nodup_names hAscending'⟩
                  ?_ (Json.object.inj h))
              intro e he e' he' hSame
              rcases Prod.ext_iff.mp hSame with
                ⟨hName, hValue⟩
              rcases List.mem_map.mp (hDeclared e he) with
                ⟨f, hf, hField⟩
              exact Prod.ext hName
                (ih e he (hFree.fields he)
                  (hVs e he f hf hField)
                  (hWs e' he' f hf (hField.trans hName))
                  hValue)

end Value

end TagWire

------------------------------------------------------------
-- Decoded Messages
------------------------------------------------------------

namespace TagWire

namespace Value

open Schema

variable {s : ResolvedSchema}

/-
  Two decoded values of a message of an accepted schema have
  the same JSON form exactly when they are the same, if the
  message reaches no float. Every map in them becomes an
  object with as many members as the map has entries.
-/
theorem toJson_decode_faithful
    {text : String}
    (hCompile : compile text = .ok s)
    {m : Message TypeRef}
    (hMessage : m ∈ s.messages)
    (hFloats :
      ∀ kind,
        ¬ s.Reaches (.named (.message m.name))
          (.scalar (.num (.float kind))))
    {data data' : List UInt8}
    {v v' : Value}
    (h : decode s m.name data = .ok v)
    (h' : decode s m.name data' = .ok v') :
    (v.toJson = v'.toJson ↔ v = v') ∧
    (v.isEqual v' = true ↔ v = v') ∧
    ∀ entries, Part (map entries) v →
      ∃ members,
        (map entries).toJson = .object members ∧
          members.length = entries.length ∧
          (members.map Prod.fst).Nodup := by
  have hs := wellFormed_of_compile hCompile
  have hv := conforms_of_decode hs hMessage h
  have hv' := conforms_of_decode hs hMessage h'
  have hFree := floatFree_of_conforms hFloats hv
  refine ⟨⟨eq_of_toJson hFree hv hv', ?_⟩,
    isEqual_iff_eq hFree, ?_⟩
  · exact fun hSame => congrArg toJson hSame
  · intro entries hPart
    rcases exists_conforms_of_part hPart hv with
      ⟨type, _, hConforms⟩
    exact members_of_map hConforms

open Sample in
/- Requests for different corpora differ in JSON. -/
theorem toJson_decode_faithful_request :
    ∃ v v',
      decode searchSchema "SearchRequest"
          [1, 1, 0, 0, 0, 65, 4, 1, 0, 0, 0] = .ok v ∧
      decode searchSchema "SearchRequest"
          [1, 1, 0, 0, 0, 65, 4, 2, 0, 0, 0] = .ok v' ∧
      v.toJson ≠ v'.toJson := by
  have hFloats :
      ∀ kind,
        ¬ searchSchema.Reaches
          (.named (.message "SearchRequest"))
          (.scalar (.num (.float kind))) := by
    intro kind hReaches
    cases hReaches with
    | field hFound hField hReaches =>
        cases hFound
        simp only [SearchRequest.declaration, List.mem_cons,
          List.not_mem_nil, or_false] at hField
        rcases hField with rfl | rfl | rfl | rfl | rfl
        · cases hReaches
        · cases hReaches
        · cases hReaches
        · cases hReaches
        · cases hReaches with
          | element hReaches => cases hReaches
  have hDecode :
      decode searchSchema "SearchRequest"
          [1, 1, 0, 0, 0, 65, 4, 1, 0, 0, 0] =
        .ok
          (message "SearchRequest"
            [("corpus", enum "Corpus" "Web"),
              ("query", string "A")]) := by
    rfl
  have hDecode' :
      decode searchSchema "SearchRequest"
          [1, 1, 0, 0, 0, 65, 4, 2, 0, 0, 0] =
        .ok
          (message "SearchRequest"
            [("corpus", enum "Corpus" "Images"),
              ("query", string "A")]) := by
    rfl
  rcases
      toJson_decode_faithful compile_searchText
        (m := SearchRequest.declaration) (by simp [searchSchema])
        hFloats hDecode hDecode' with
    ⟨hJson, _⟩
  refine ⟨_, _, hDecode, hDecode', fun hSame => ?_⟩
  have hCorpus :=
    congrArg (fun v => (v.get? "corpus").map asString)
      (hJson.mp hSame)
  exact absurd hCorpus (by decide)

end Value

end TagWire
