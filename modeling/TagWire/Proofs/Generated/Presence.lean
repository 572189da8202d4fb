import TagWire.Proofs.Generated.Correspondence
import TagWire.Proofs.Generated.Run
import TagWire.Proofs.Value.Required

/-
  What generated code asks of a field before it writes it. The
  tests are of different sorts, and each finds out what the
  values of its type are zero.

  Main declarations:
    * `Generated.isNotZero?_eq`
    * `Generated.isNotZeroPoint?_eq`
    * `Generated.number?_datum`
-/

------------------------------------------------------------
-- Numbers
------------------------------------------------------------

namespace TagWire

namespace Generated

open Datum

/- Integers are compared with zero by their value. -/
theorem isNotZero?_eq
    (k : IntKind)
    (word : k.Word) :
    isNotZero? (.number (.int k) word) =
      some (!NumKind.isZero (.int k) word) := by
  have hZero : k.value (0 : k.Word) = 0 := by
    unfold IntKind.value
    split <;> simp
  have hIff : k.value word = 0 ↔ word = 0 := by
    constructor
    · intro h
      exact IntKind.value_injective (h.trans hZero.symm)
    · intro h
      rw [h, hZero]
  have hBeq :
      NumKind.isZero (.int k) word = decide (word = 0) := rfl
  rw [hBeq]
  simp [isNotZero?, hIff]

/-
  Below its sign a float is an exponent field and a fraction.
  The mantissa is zero where both are, and nowhere else.
-/
theorem differsFromZero_decode
    (k : FloatKind)
    (word : k.Word) :
    differsFromZero (k.decode word) = !k.isZero word := by
  let half := Nat.pow 2 (k.precision - 1)
  let fraction := word.toNat % half
  let field := word.toNat / half % k.exponentFields
  have hHalf : 0 < half := Nat.pow_pos (by decide)
  have hFields : 2 ≤ k.exponentFields := by
    cases k <;> decide
  have hParts :
      word.toNat % Nat.pow 2 (8 * k.size - 1) =
        fraction + half * field := by
    have hWidth :
        Nat.pow 2 (8 * k.size - 1) = half * k.exponentFields := by
      cases k <;> decide
    rw [hWidth]
    exact Nat.mod_mul
  have hZero :
      k.isZero word = (fraction == 0 && field == 0) := by
    rw [FloatKind.isZero, hParts, Bool.eq_iff_iff]
    simp [hHalf.ne']
  rw [hZero]
  show differsFromZero
      (if field + 1 = k.exponentFields then
        if fraction = 0 then _ else _
      else if field = 0 then
        .finite _ fraction _
      else
        .finite _ (half + fraction) _) = _
  by_cases hLast : field + 1 = k.exponentFields
  · have hField : field ≠ 0 := by omega
    rw [if_pos hLast]
    split <;> simp [differsFromZero, hField]
  · rw [if_neg hLast]
    by_cases hField : field = 0
    · simp [differsFromZero, hField, bne]
    · have hMantissa : half + fraction ≠ 0 := by omega
      rw [if_neg hField, differsFromZero,
        bne_iff_ne.mpr hMantissa, beq_false_of_ne hField,
        Bool.and_false]
      rfl

/- Floats are compared with zero as the numbers they are. -/
theorem isNotZeroPoint?_eq
    (k : FloatKind)
    (word : k.Word) :
    isNotZeroPoint? (.number (.float k) word) =
      some (!NumKind.isZero (.float k) word) :=
  congrArg some (differsFromZero_decode k word)

end Generated

end TagWire

------------------------------------------------------------
-- Variants
------------------------------------------------------------

namespace TagWire

namespace Generated

open Emit

variable {p : Program}
variable {s : ResolvedSchema}
variable {e : EnumDecl}
variable {variant : String}

/- The variants of an enum in a program. -/
def variantItems
    (e : EnumDecl) :
    List Variant :=
  (numbered e).map fun (variant, i) =>
    ⟨i = 0, Names.typeIdent variant, i⟩

/- An enum with variants is written with all that it can do. -/
theorem enumItem_of_mem
    (h : variant ∈ e.variants) :
    enumItem .binary e =
      ⟨⟨enumTraits ++ ["Default"], ["repr(u32)"]⟩,
        Names.typeIdent e.name, variantItems e,
        some
          ⟨(variantItems e).map fun v => (v.number, v.ident),
            e.name⟩⟩ := by
  have hNotEmpty : e.variants.isEmpty = false :=
    List.isEmpty_eq_false_iff.mpr (List.ne_nil_of_mem h)
  unfold enumItem
  rw [hNotEmpty]
  rfl

theorem idents_variantItems
    (e : EnumDecl) :
    (variantItems e).map Variant.ident =
      e.variants.map Names.typeIdent := by
  have hNames :
      e.variants.zipIdx.map Prod.fst = e.variants :=
    List.zipIdx_map_fst 0 e.variants
  conv_rhs => rw [← hNames, List.map_map]
  rw [variantItems, numbered, List.map_map]
  rfl

/- A variant has its place among all as its number. -/
theorem find?_variantItems
    (hVariants : (e.variants.map Names.typeIdent).Nodup)
    (h : variant ∈ e.variants) :
    (variantItems e).find?
        (·.ident == Names.typeIdent variant) =
      some
        ⟨e.variants.idxOf variant = 0, Names.typeIdent variant,
          e.variants.idxOf variant⟩ := by
  have hPlace :
      (variant, e.variants.idxOf variant) ∈ numbered e := by
    refine List.mk_mem_zipIdx_iff_getElem?.mpr ?_
    exact List.getElem?_idxOf h
  rw [← idents_variantItems] at hVariants
  exact Schema.find?_of_nodup hVariants
    (List.mem_map_of_mem hPlace)

/- The number of a variant is its place among all. -/
theorem Serves.number?_datum
    (hp : Serves p s)
    (hEnum : e ∈ s.enums)
    (h : variant ∈ e.variants) :
    p.number? (datum s (.enum e.name variant)) =
      some
        (.number (.int .uint32)
          (BitVec.ofNat _ (e.variants.idxOf variant))) := by
  have hFind := find?_variantItems (hp.variants e hEnum) h
  rw [datum, Program.number?, hp.enums e hEnum,
    enumItem_of_mem h]
  show ((variantItems e).find? _ >>= _) = _
  rw [hFind]
  rfl

/- The first variant is the one with the number zero. -/
theorem Serves.isZero_number
    (hs : s.WellFormed)
    (hp : Serves p s)
    (hEnum : e ∈ s.enums)
    (h : variant ∈ e.variants) :
    NumKind.isZero (.int .uint32)
        (BitVec.ofNat _ (e.variants.idxOf variant)) =
      (Value.enum e.name variant).isZero s := by
  have hFit : e.variants.idxOf variant < 2 ^ 32 :=
    Nat.lt_of_lt_of_le (List.idxOf_lt_length_iff.mpr h)
      (hp.variantsFit e hEnum)
  have hNumber :
      NumKind.isZero (.int .uint32)
          (BitVec.ofNat _ (e.variants.idxOf variant)) = true ↔
        e.variants.idxOf variant = 0 := by
    show (BitVec.ofNat 32 _ == 0) = true ↔ _
    rw [beq_iff_eq, ← BitVec.toNat_inj, BitVec.toNat_ofNat,
      Nat.mod_eq_of_lt hFit]
    rfl
  have hFirst :
      (Value.enum e.name variant).isZero s = true ↔
        e.variants.idxOf variant = 0 := by
    rcases List.exists_cons_of_ne_nil (List.ne_nil_of_mem h)
      with ⟨first, others, hVariants⟩
    rw [Value.isZero, Schema.enum?_of_mem hs hEnum]
    cases hSame : first == variant with
    | true => simp_all [List.idxOf_cons]
    | false => simp_all [List.idxOf_cons]
  rw [Bool.eq_iff_iff, hNumber, hFirst]

end Generated

end TagWire

------------------------------------------------------------
-- Zeros
------------------------------------------------------------

namespace TagWire

namespace Generated

open Value

variable {s : ResolvedSchema}

/-
  What a field has if it is left out is the data of a value
  that is zero. Only messages have none.
-/
theorem exists_zero
    (hs : s.WellFormed)
    {type : ResolvedType}
    (hClosed : s.Closed type)
    (hType : type.isByReference = false) :
    ∃ v, Held s type v ∧ v.isZero s = true ∧
      zeroDatum s type = datum s v := by
  match type with
  | .scalar (.num (.int k)) =>
      exact ⟨.number (.int k) 0, .number, isZero_iff.mpr .int,
        by rw [datum, zeroDatum]⟩
  | .scalar (.num (.float k)) =>
      exact ⟨.number (.float k) 0, .number,
        isZero_iff.mpr (.float (.inl rfl)),
        by rw [datum, zeroDatum]⟩
  | .scalar .string =>
      exact ⟨.string "", .string, isZero_iff.mpr .string,
        by rw [datum, zeroDatum]⟩
  | .list element =>
      exact ⟨.list [], .list (by simp), isZero_iff.mpr .list,
        by rw [datum, datumElements, zeroDatum]⟩
  | .map key value =>
      exact ⟨.map [], .map .nil (by simp) (by simp),
        isZero_iff.mpr .map,
        by rw [datum, datumEntries, zeroDatum]⟩
  | .named (.message name) => cases hType
  | .named (.enum name) =>
      rcases hClosed with ⟨e, he, rfl, hVariants⟩
      rcases List.exists_cons_of_ne_nil hVariants with
        ⟨first, others, hFirst⟩
      have hEnum := Schema.enum?_of_mem hs he
      have hHead : e.variants.head? = some first := by
        rw [hFirst]
        rfl
      refine ⟨.enum e.name first,
        .enum he (List.mem_of_head? hHead),
        isZero_iff.mpr (.enum hEnum hHead), ?_⟩
      rw [datum, zeroDatum, hEnum]
      simp [hFirst]

end Generated

end TagWire
