import TagWire.Proofs.Typed.Format
import TagWire.Proofs.Value.Canonical
import TagWire.Sample.Cases

/-
  Trees contain trees, so that their codec is defined from
  itself. It agrees with the schema's codec level by level.

  Main declarations:
    * `Sample.Tree.Like`
    * `Sample.Tree.encode_like`
    * `Sample.Tree.agree`
-/

------------------------------------------------------------
-- Values Like Trees
------------------------------------------------------------

namespace TagWire

namespace Sample

namespace Tree

open Likeness

/-
  A value is like a tree if its number is the one at the top
  and the elements of its list are like the trees below.
-/
inductive Like : Likeness Tree
| node
    {fields : List (String × Value)}
    {value : Int32Word}
    {vs : List Value}
    {children : List Tree}
    (hAscending : Keyed.Ascending fields)
    (hDeclared : ∀ e ∈ fields, e.1 ∈ ["value", "children"])
    (hValue :
      OrZero (.number _) 0 (fields.lookup "value") value)
    (hChildren :
      (fields.lookup "children").getD (.list []) = .list vs)
    (hBelow : List.Forall₂ Like vs children) :
    Like (.message "Tree" fields) (node value children)

/- How a message holds the parts of a tree. -/
def slots : List (Slot Tree) :=
  [
    .of "value" (.number _) 0 value,
    .of "children" (.list Like) [] children
  ]

/- Trees are like messages as structures are. -/
theorem like_eq : Like = .message "Tree" slots := by
  funext v t
  apply propext
  constructor
  · intro h
    cases h with
    | @node fields value vs children hAscending hDeclared
        hValue hChildren hBelow =>
        refine ⟨fields, rfl, hAscending, hDeclared, ?_⟩
        refine List.forall_mem_cons.mpr ⟨hValue, ?_⟩
        refine List.forall_mem_singleton.mpr ?_
        show OrZero (.list Like) [] (fields.lookup "children")
          children
        cases hLookup : fields.lookup "children" with
        | none =>
            rw [hLookup] at hChildren
            cases hChildren
            cases hBelow
            rfl
        | some v =>
            rw [hLookup] at hChildren
            exact ⟨vs, hChildren, hBelow⟩
  · intro h
    rcases h with
      ⟨fields, rfl, hAscending, hDeclared, hHolds⟩
    rcases List.forall_mem_cons.mp hHolds with
      ⟨hValue, hRest⟩
    have hBelow :
        OrZero (.list Like) [] (fields.lookup "children")
          t.children :=
      hRest _ List.mem_cons_self
    rcases t with ⟨value, children⟩
    cases hLookup : fields.lookup "children" with
    | none =>
        rw [hLookup] at hBelow
        obtain rfl : children = [] := hBelow
        refine .node hAscending hDeclared hValue ?_ .nil
        rw [hLookup]
        rfl
    | some v =>
        rw [hLookup] at hBelow
        rcases hBelow with ⟨vs, rfl, hBelow⟩
        refine .node hAscending hDeclared hValue ?_ hBelow
        rw [hLookup]
        rfl

------------------------------------------------------------
-- Induction
------------------------------------------------------------

/- What holds above trees for which it holds, holds of all. -/
@[elab_as_elim]
theorem induct
    {P : Tree → Prop}
    (node :
      ∀ value children, (∀ t ∈ children, P t) →
        P (.node value children))
    (t : Tree) :
    P t :=
  @Tree.rec P
    (fun children => ∀ t ∈ children, P t)
    node
    (fun _ h => absurd h List.not_mem_nil)
    (fun _ _ hHead hRest =>
      List.forall_mem_cons.mpr ⟨hHead, hRest⟩)
    t

/- Every tree has a value like it. -/
theorem exists_like
    (t : Tree) :
    ∃ v, Like v t := by
  induction t using induct with
  | node value children ih =>
      rcases exists_forall₂ ih with ⟨vs, hBelow⟩
      refine ⟨.message "Tree"
        [("children", .list vs), ("value", .number _ value)],
        .node ?_ ?_ rfl rfl hBelow⟩
      · have hOrder : compare "children" "value" = .lt := by
          decide
        exact List.pairwise_pair.mpr hOrder
      · simp

/- Lists like the same are equal if their elements are. -/
private theorem eq_of_forall₂
    {vs : List Value}
    {ts ts' : List Tree}
    (hUnique :
      ∀ t ∈ ts, ∀ {v t'}, Like v t → Like v t' → t = t')
    (h : List.Forall₂ Like vs ts)
    (h' : List.Forall₂ Like vs ts') :
    ts = ts' := by
  induction h generalizing ts' with
  | nil =>
      cases h'
      rfl
  | cons hHead _ ih =>
      rcases List.forall_mem_cons.mp hUnique with
        ⟨hFirst, hOthers⟩
      cases h' with
      | cons hHead' hRest' =>
          rw [hFirst hHead hHead', ih hOthers hRest']

/- No value is like two trees. -/
theorem eq_of_like
    {v : Value}
    {t t' : Tree}
    (h : Like v t)
    (h' : Like v t') :
    t = t' := by
  induction t using induct generalizing v t' with
  | node value children ih =>
      cases h with
      | @node _ _ vs _ _ _ hValue hChildren hBelow =>
          cases h' with
          | @node _ value' vs' children' _ _ hValue' hChildren'
              hBelow' =>
              have hTop :=
                ((faithful_number _).orZero 0).unique hValue
                  hValue'
              rw [hChildren] at hChildren'
              cases hChildren'
              have hRest := eq_of_forall₂ ih hBelow hBelow'
              rw [hTop, hRest]

theorem faithful_like :
    Faithful Like where
  total := exists_like
  unique _ _ _ := eq_of_like

end Tree

end Sample

end TagWire

------------------------------------------------------------
-- Agreement
------------------------------------------------------------

namespace TagWire

namespace Sample

namespace Tree

open Likeness Value

/- A value like a tree is a message. -/
theorem exists_fields_of_like
    {v : Value}
    {t : Tree}
    (h : Like v t) :
    ∃ fields, v = .message "Tree" fields := by
  cases h with
  | @node fields => exact ⟨fields, rfl⟩

/- Trees below one are carried as they are alone. -/
theorem mirrors_codec
    {R : Likeness Tree}
    {nested : MessageDecoder}
    {decode : List UInt8 → Except WireError Tree}
    (hLike : ∀ v t, R v t → Like v t)
    (hEncode :
      ∀ v t, R v t →
        v.encode casesSchema = t.encode.mapError .wire)
    (hDecode :
      ∀ data,
        Outcome.Alike R (nested "Tree" data) (decode data)) :
    (codec decode).Mirrors casesSchema nested
      (.named (.message "Tree")) R :=
  Codec.mirrors_nested
    (fun v t h => exists_fields_of_like (hLike v t h))
    hEncode hDecode

/- Below the last level no bytes are left to be read. -/
def exhausted : MessageDecoder :=
  fun _ _ => .error (.wire (.unexpectedEnd 0 1))

theorem alike_exhausted
    {R : Likeness Tree}
    (data : List UInt8) :
    Outcome.Alike R (exhausted "Tree" data)
      (.error (.unexpectedEnd 0 1)) :=
  .error _

/- What is like a tree is written as the tree is. -/
theorem encode_like
    {v : Value}
    {t : Tree}
    (h : Like v t) :
    v.encode casesSchema = t.encode.mapError .wire := by
  induction t using induct generalizing v with
  | node value children ih =>
      rw [like_eq] at h
      rcases h with ⟨fields, rfl, _, _, hHolds⟩
      rcases List.forall_mem_cons.mp hHolds with
        ⟨hValue, hRest⟩
      have hBelow :
          OrZero (.list Like) [] (fields.lookup "children")
            children :=
        hRest _ List.mem_cons_self
      -- The trees below are known to be written alike.
      let R : Likeness Tree := fun v t =>
        Like v t ∧ v.encode casesSchema = t.encode.mapError .wire
      have hChild :=
        mirrors_codec (R := R) (fun _ _ h => h.1)
          (fun _ _ h => h.2) alike_exhausted
      have hChildren := Codec.mirrors_list hChild
      have hNumber :
          (Codec.number (.int .int32)).Mirrors casesSchema
            exhausted (.scalar (.num (.int .int32)))
            (.number _) :=
        Codec.mirrors_number _
      have hWritten :
          OrZero (.list R) [] (fields.lookup "children")
            children :=
        orZero_list_imp_of_mem
          (fun t ht v hv => ⟨hv, ih t ht hv⟩) hBelow
      rw [encode_eq fun _ => .error (.unexpectedEnd 0 1)]
      show encodeEach casesSchema
        ([] ++ [declaration.fields[0]] ++
          [declaration.fields[1]]) fields = _
      rw [encodeEach_append, encodeEach_append,
        Format.encodeField_mirror declaration.fields[0] rfl
          (fun v => hNumber.isZero v value)
          (fun v => hNumber.encode _ v value) hValue,
        Format.encodeField_mirror declaration.fields[1] rfl
          (fun v => hChildren.isZero v children)
          (fun v => hChildren.encode _ v children) hWritten]
      simp only [format, Format.required, Format.optional,
        Format.field, Outcome.mapError_bind]
      rfl

/- The format mirrors the declaration at each level. -/
theorem mirrors_format
    {nested : MessageDecoder}
    {decode : List UInt8 → Except WireError Tree}
    (hDecode :
      ∀ data,
        Outcome.Alike Like (nested "Tree" data) (decode data)) :
    ∃ Made,
      (format (codec decode)).Mirrors casesSchema nested
        declaration.fields slots Made ∧
      ∀ get t, Made get t ↔
        ∀ l ∈ slots, l.Holds (get l.name) t := by
  have hChild :=
    mirrors_codec (fun _ _ h => h) (fun _ _ => encode_like)
      hDecode
  have hMirrors :=
    (Format.mirrors_start casesSchema nested node)
      |>.field declaration.fields[0] value (by decide)
        (Codec.field_number _)
      |>.field declaration.fields[1] children (by decide)
        (Codec.field_list hChild faithful_like)
  refine ⟨_, hMirrors, ?_⟩
  intro get x
  rcases x with ⟨value, children⟩
  simp [Format.With, slots, Slot.of, declaration, Codec.number,
    Codec.list, Tree.value, Tree.children]

/- Trees of so many levels are read as the schema says. -/
theorem alike_decodeWithin
    (depth : Nat)
    (data : List UInt8) :
    Outcome.Alike Like
      (decodeFrom casesSchema exhausted (depth + 1) "Tree" data)
      (decodeWithin depth data) := by
  induction depth generalizing data with
  | zero =>
      rcases mirrors_format alike_exhausted with
        ⟨Made, hMirrors, hMade⟩
      rw [like_eq]
      exact hMirrors.decode rfl rfl (by decide) hMade data
  | succ depth ih =>
      rcases mirrors_format ih with ⟨Made, hMirrors, hMade⟩
      rw [like_eq]
      exact hMirrors.decode rfl rfl (by decide) hMade data

theorem agree :
    CodecsAgree casesSchema "Tree" Tree Like where
  decode data := by
    rw [← decodeFrom_eq exhausted "Tree" (Nat.lt_succ_self _)]
    exact alike_decodeWithin data.length data
  encode _ _ := encode_like
  faithful := faithful_like

end Tree

end Sample

end TagWire
