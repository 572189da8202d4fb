import TagWire.Proofs.Sample.Agreement
import TagWire.Proofs.Typed.Recovery

/-
  A tree is written when no number in it is zero, and it is
  read back. A tree without children ends where the tag of
  the children would stand. What stands there is another tree
  or nothing, and a tree starts with the tag of its number.
  So it is with the code that is generated for trees.

  Main declarations:
    * `Sample.Tree.Part`
    * `Sample.Tree.requires_encode`
    * `Sample.Tree.decodeWithin_encode_append`
    * `Sample.Tree.decode_of_encode`
    * `Sample.Tree.unmarshal_marshal_iff`
-/

------------------------------------------------------------
-- Trees in Trees
------------------------------------------------------------

namespace TagWire

namespace Sample

namespace Tree

/- The trees that occur in a tree, itself included. -/
inductive Part
    (u : Tree) :
    Tree → Prop
| refl : Part u u
| child
    {value : Int32Word}
    {children : List Tree}
    {t : Tree}
    (hMem : t ∈ children)
    (h : Part u t) :
    Part u (node value children)

/- What holds in a tree holds at its top and below. -/
theorem forall_part_node_iff
    {P : Tree → Prop}
    {value : Int32Word}
    {children : List Tree} :
    (∀ u, Part u (node value children) → P u) ↔
      P (node value children) ∧
        ∀ t ∈ children, ∀ u, Part u t → P u := by
  constructor
  · intro h
    exact ⟨h _ .refl, fun t ht u hu => h u (.child ht hu)⟩
  · intro h u hu
    rcases h with ⟨hTop, hBelow⟩
    cases hu with
    | refl => exact hTop
    | child hMem hu => exact hBelow _ hMem u hu

end Tree

end Sample

end TagWire

------------------------------------------------------------
-- Trees That Are Written
------------------------------------------------------------

namespace TagWire

namespace Sample

namespace Tree

open Outcome

/- The number at the top is written if it is not zero. -/
theorem requires_encode_value
    (value : Int32Word) :
    Requires
      (FieldSpec.encode ⟨1, "value", false⟩
        (.number (.int .int32)) value)
      (value ≠ 0) (.missingField "value") := by
  unfold FieldSpec.encode
  constructor
  · intro hSet
    have hZero :
        (Codec.number (.int .int32)).isZero value = false :=
      beq_false_of_ne hSet
    rw [hZero]
    exact ⟨_, rfl⟩
  · intro hUnset
    have hZero :
        (Codec.number (.int .int32)).isZero value = true :=
      beq_of_eq (not_not.mp hUnset)
    rw [hZero]
    rfl

/- Trees are written one behind the other if each can be. -/
theorem requires_encodeAll
    {P : Tree → Prop}
    {e : WireError}
    {ts : List Tree}
    (hEach : ∀ t ∈ ts, Requires t.encode (P t) e) :
    Requires (encodeAll ts) (∀ t ∈ ts, P t) e := by
  induction ts with
  | nil => exact requires_of_ok ⟨[], by rw [encodeAll]⟩ (by simp)
  | cons t rest ih =>
      rcases List.forall_mem_cons.mp hEach with
        ⟨hHead, hRest⟩
      rw [encodeAll, List.forall_mem_cons]
      refine hHead.bind fun bytes _ => ?_
      exact (ih hRest).bind_ok fun others => ⟨_, rfl⟩

/-
  A tree whose lists of children are not too long is written
  if no number in it is zero.
-/
theorem requires_encode
    {t : Tree}
    (hFits : ∀ u, Part u t → u.children.length ≤ maxLength) :
    Requires t.encode (∀ u, Part u t → u.value ≠ 0)
      (.missingField "value") := by
  induction t using induct with
  | node value children ih =>
      rcases forall_part_node_iff.mp hFits with
        ⟨hLength, hFits⟩
      have hBelow :=
        requires_encodeAll fun t ht => ih t ht (hFits t ht)
      rw [forall_part_node_iff, encode]
      refine (requires_encode_value value).bind fun top _ => ?_
      cases children with
      | nil => exact requires_of_ok ⟨top, rfl⟩ (by simp)
      | cons t rest =>
          rcases exists_encodeLength_iff.mpr hLength with
            ⟨size, hSize⟩
          have hSize : encodeLength (t :: rest).length = .ok size :=
            hSize
          rw [hSize]
          exact hBelow.bind_ok fun below => ⟨_, rfl⟩

/-
  What is written for a tree is the tag of its number, which
  is not zero, and somewhere behind it the trees below.
-/
theorem of_encode_node
    {value : Int32Word}
    {children : List Tree}
    {bytes : List UInt8}
    (h : (node value children).encode = .ok bytes) :
    value ≠ 0 ∧
      ∃ below rest,
        encodeAll children = .ok below ∧ bytes = 1 :: rest ∧
          below.length ≤ rest.length := by
  rw [encode, bind_eq_ok_iff] at h
  rcases h with ⟨top, hTop, h⟩
  have hSet :=
    (requires_encode_value value).exists_ok_iff.mp ⟨top, hTop⟩
  have hZero :
      (Codec.number (.int .int32)).isZero value = false :=
    beq_false_of_ne hSet
  rw [FieldSpec.encode, hZero] at hTop
  cases hTop
  refine ⟨hSet, ?_⟩
  cases children with
  | nil =>
      cases h
      exact ⟨[], _, by rw [encodeAll], rfl, Nat.zero_le _⟩
  | cons t ts =>
      simp only [List.isEmpty_cons, Bool.false_eq_true,
        if_false, bind_eq_ok_iff, pure_eq_ok_iff] at h
      rcases h with ⟨size, _, below, hBelow, rfl⟩
      refine ⟨below, _, hBelow, rfl, ?_⟩
      show
        below.length ≤
          (LittleEndian.encode value ++
            2 :: (size ++ below)).length
      simp only [List.length_append, List.length_cons]
      omega

/- Each tree of some trees is written in fewer bytes. -/
theorem exists_encode_of_encodeAll
    {ts : List Tree}
    {bytes : List UInt8}
    (h : encodeAll ts = .ok bytes)
    {t : Tree}
    (ht : t ∈ ts) :
    ∃ inner, t.encode = .ok inner ∧
      inner.length ≤ bytes.length := by
  induction ts generalizing bytes with
  | nil => cases ht
  | cons t' rest ih =>
      simp only [encodeAll, bind_eq_ok_iff, pure_eq_ok_iff] at h
      rcases h with ⟨first, hFirst, others, hOthers, rfl⟩
      rw [List.length_append]
      rcases List.mem_cons.mp ht with rfl | ht
      · exact ⟨first, hFirst, Nat.le_add_right _ _⟩
      · rcases ih hOthers ht with ⟨inner, hInner, hLe⟩
        exact ⟨inner, hInner, hLe.trans (Nat.le_add_left _ _)⟩

end Tree

end Sample

end TagWire

------------------------------------------------------------
-- Trees That Are Read Back
------------------------------------------------------------

namespace TagWire

namespace Sample

namespace Tree

open Codec

/- A tree does not start with the tag of children. -/
theorem avoids_of_encode
    {t : Tree}
    {bytes : List UInt8}
    (h : t.encode = .ok bytes)
    (rest : List UInt8) :
    Avoids [2] (bytes ++ rest) := by
  rcases t with ⟨value, children⟩
  rcases of_encode_node h with ⟨_, _, behind, _, rfl, _⟩
  simp [Avoids]

/-
  A tree is read back if its bytes are no more than the levels
  that are read, and no children seem to be behind it. Below
  it are fewer levels, and each tree there takes fewer bytes.
-/
theorem decodeWithin_encode_append
    {t : Tree}
    {depth : Nat}
    {bytes rest : List UInt8}
    (hEncode : t.encode = .ok bytes)
    (hDepth : bytes.length ≤ depth)
    (hAvoids : Avoids [2] rest) :
    decodeWithin depth (bytes ++ rest) = .ok t := by
  induction t using induct generalizing depth bytes rest with
  | node value children ih =>
      rcases of_encode_node hEncode with
        ⟨hSet, below, behind, hBelow, rfl, hLength⟩
      rw [List.length_cons] at hDepth
      cases depth with
      | zero => omega
      | succ depth =>
          have hEach :
              ∀ u ∈ children,
                (codec (decodeWithin depth)).Recovers [2] u := by
            intro u hu
            rcases exists_encode_of_encodeAll hBelow hu with
              ⟨inner, hInner, hLe⟩
            refine recovers_nested fun bytes' rest' hEncode'
              hAvoids' => ?_
            rw [hInner] at hEncode'
            cases hEncode'
            exact ih u hu hInner (by omega) hAvoids'
          have hChildren :
              (list (codec (decodeWithin depth))).Recovers [2]
                children :=
            recovers_list_of_avoids hEach
              fun u _ _ rest' hEncode' _ =>
                avoids_of_encode hEncode' rest'
          have hRecovers :
              (format (codec (decodeWithin depth))).Recovers
                [2] (node value children)
                (node value children) :=
            ((Format.recovers_start node (node value children))
              |>.field_set (by decide) (beq_false_of_ne hSet)
                (recovers_number _)
              |>.field_any (by decide) (oneZero_list _)
                (fun _ => hChildren)).mono (by decide)
          rw [encode_eq (decodeWithin depth)] at hEncode
          exact hRecovers.decode hEncode hAvoids

/- What is written of a tree is read as the tree. -/
theorem decode_of_encode
    {t : Tree}
    {bytes : List UInt8}
    (h : t.encode = .ok bytes) :
    decode bytes = .ok t := by
  have hBack :=
    decodeWithin_encode_append h le_rfl (avoids_nil_right _)
  rwa [List.append_nil] at hBack

end Tree

end Sample

end TagWire

------------------------------------------------------------
-- Generated Code of Trees
------------------------------------------------------------

namespace TagWire

namespace Sample

namespace Tree

open Generated

/-
  In the code that is generated from the schema, the data of
  trees is that of its type. A tree whose lists of children
  are not too long is written exactly if no number in it is
  zero. If there is a zero, the number is reported as unset.
  What is written is read back.
-/
theorem unmarshal_marshal_iff
    (lib : JsonLibrary) :
    Generates "cases.dg" "cases" casesText .binary
      casesProgram [] ∧
    (∀ d, casesProgram.HasType (.named "Tree") d ↔
      ∃ t, datum t = d) ∧
    ∀ t, (∀ u, Part u t → u.children.length ≤ maxLength) →
      ((∃ bytes,
        casesProgram.marshal lib (datum t) =
          some (.ok bytes)) ↔
        ∀ u, Part u t → u.value ≠ 0) ∧
      ((¬ ∀ u, Part u t → u.value ≠ 0) →
        casesProgram.marshal lib (datum t) =
          some (.error (.missingField "value"))) ∧
      ∀ bytes,
        casesProgram.marshal lib (datum t) =
          some (.ok bytes) →
        casesProgram.unmarshal lib "Tree" bytes =
          some (.ok (datum t)) := by
  refine ⟨generates_cases, hasType_iff, fun t hFits => ?_⟩
  have hRequires := requires_encode hFits
  have hMarshal :
      casesProgram.marshal lib (datum t) = some t.encode :=
    (runsAs lib).marshal t
  rw [hMarshal]
  refine ⟨?_, ?_, ?_⟩
  · rw [← hRequires.exists_ok_iff]
    simp only [Option.some.injEq]
  · intro hUnset
    rw [hRequires.error hUnset]
  · intro bytes hEncode
    have hBack : decode bytes = .ok t :=
      decode_of_encode (Option.some.inj hEncode)
    have hUnmarshal :
        casesProgram.unmarshal lib "Tree" bytes =
          some ((decode bytes).map datum) :=
      (runsAs lib).unmarshal bytes
    rw [hUnmarshal, hBack]
    rfl

/- A tree whose leaves stand at different levels. -/
def threeLevels : Tree :=
  node 7 [node 3 [node 9 []], node 5 []]

/- It is written, and it is read back. -/
theorem unmarshal_marshal_threeLevels :
    (∀ u, Part u threeLevels →
      u.children.length ≤ maxLength) ∧
    ∃ bytes,
      casesProgram.marshal .missing (datum threeLevels) =
        some (.ok bytes) ∧
      casesProgram.unmarshal .missing "Tree" bytes =
        some (.ok (datum threeLevels)) := by
  have hFits :
      ∀ u, Part u threeLevels →
        u.children.length ≤ maxLength := by
    simp [threeLevels, forall_part_node_iff, Tree.children,
      maxLength]
  have hSet : ∀ u, Part u threeLevels → u.value ≠ 0 := by
    simp only [threeLevels, forall_part_node_iff, Tree.value,
      List.forall_mem_cons]
    simp +decide
  rcases unmarshal_marshal_iff .missing with ⟨_, _, hTrees⟩
  rcases hTrees threeLevels hFits with ⟨hWritten, _, hBack⟩
  rcases hWritten.mpr hSet with ⟨bytes, hEncode⟩
  exact ⟨hFits, bytes, hEncode, hBack bytes hEncode⟩

end Tree

end Sample

end TagWire
