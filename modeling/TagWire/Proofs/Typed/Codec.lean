import TagWire.Proofs.Typed.Alike
import TagWire.Proofs.Typed.Likeness
import TagWire.Proofs.Value.Encoding
import TagWire.Typed.Codec

/-
  Codecs of types of their own do what the schema's codec does
  for values of the type: they read what is alike and write
  what is alike to the same bytes.

  Main declarations:
    * `Codec.Mirrors`
    * `Codec.mirrors_enum`
    * `Codec.mirrors_list`
    * `Codec.mirrors_map`
    * `Codec.mirrors_nested`
-/

------------------------------------------------------------
-- Mirrors
------------------------------------------------------------

namespace TagWire

namespace Codec

open Value

/-
  A codec mirrors a type of the schema, given how the messages
  inside are decoded.
-/
structure Mirrors
    {α : Type}
    (s : ResolvedSchema)
    (nested : MessageDecoder)
    (type : ResolvedType)
    (c : Codec α)
    (R : Likeness α) : Prop where
  read : Reader.Alike R (decodeAs s nested type) c.read
  encode :
    ∀ field v a, R v a →
      encodeAs s field type v = (c.encode a).mapError .wire
  isZero : ∀ v a, R v a → v.isZero s = c.isZero a

end Codec

end TagWire

------------------------------------------------------------
-- Scalars
------------------------------------------------------------

namespace TagWire

namespace Codec

open Value

variable {α : Type}
variable {s : ResolvedSchema}
variable {nested : MessageDecoder}

theorem mirrors_number
    (k : NumKind) :
    Mirrors s nested (.scalar (.num k)) (number k)
      (.number k) where
  read := by
    refine Reader.alike_bind_pure (Reader.alike_wire _) ?_
    intro word _ h
    rcases h with rfl
    rfl
  encode := by
    intro field _ word h
    rcases h with rfl
    rw [encodeAs, if_pos rfl]
    rfl
  isZero := by
    intro _ word h
    rcases h with rfl
    rw [Value.isZero]
    rfl

theorem mirrors_string :
    Mirrors s nested (.scalar .string) string .string where
  read := by
    refine Reader.alike_bind_pure (Reader.alike_wire _) ?_
    intro text _ h
    rcases h with rfl
    rfl
  encode := by
    intro field _ text h
    rcases h with rfl
    rw [encodeAs, if_pos rfl]
    rfl
  isZero := by
    intro _ text h
    rcases h with rfl
    rw [Value.isZero]
    rfl

/- A variant has the same number as its name. -/
theorem idxOf?_map
    [DecidableEq α]
    {f : α → String}
    (hInjective : Function.Injective f)
    {as : List α}
    {a : α}
    (h : a ∈ as) :
    (as.map f).idxOf? (f a) = some (as.idxOf a) := by
  have hSame : (fun t => t == f a) ∘ f = fun b => b == a := by
    funext b
    exact hInjective.beq_eq
  show (as.map f).findIdx? (fun t => t == f a) = _
  rw [List.findIdx?_map, hSame]
  exact List.findIdx?_eq_some_of_exists ⟨a, h, beq_self_eq_true a⟩

theorem mirrors_enum
    [DecidableEq α]
    {name : String}
    {e : EnumDecl}
    {first : α}
    {others : List α}
    {variant : α → String}
    (hEnum : s.enum? name = some e)
    (hName : e.name = name)
    (hVariants : e.variants = (first :: others).map variant)
    (hInjective : Function.Injective variant)
    (hAll : ∀ a, a ∈ first :: others) :
    Mirrors s nested (.named (.enum name))
      (enum name first others variant)
      (.enum name variant) where
  read := by
    rw [decodeAs, decodeEnum, hEnum]
    refine Reader.alike_bind (Reader.alike_wire _) ?_
    intro word _ h
    rcases h with rfl
    rw [hVariants, List.getElem?_map, hName]
    cases (first :: others)[word.toNat]? with
    | none => exact Reader.alike_fail _
    | some a => exact Reader.alike_pure rfl
  encode := by
    intro field _ a h
    rcases h with rfl
    have hIndex := idxOf?_map hInjective (hAll a)
    simp only [encodeAs, hEnum, Option.bind_some, hVariants,
      hIndex]
    rfl
  isZero := by
    intro _ a h
    rcases h with rfl
    rw [Value.isZero, hEnum]
    show (e.variants.head? == some (variant a)) =
      decide (a = first)
    rw [hVariants, List.map_cons, List.head?_cons,
      Bool.eq_iff_iff, beq_iff_eq, decide_eq_true_iff,
      Option.some_inj, hInjective.eq_iff, eq_comm]

end Codec

end TagWire

------------------------------------------------------------
-- Lists
------------------------------------------------------------

namespace TagWire

namespace Codec

open Value

variable {α : Type}
variable {s : ResolvedSchema}
variable {nested : MessageDecoder}
variable {type : ResolvedType}
variable {c : Codec α}
variable {R : Likeness α}

/- Lists of elements that belong together end together. -/
theorem isEmpty_eq_of_forall₂
    {β : Type}
    {R : β → α → Prop}
    {bs : List β}
    {as : List α}
    (h : List.Forall₂ R bs as) :
    bs.isEmpty = as.isEmpty := by
  cases h with
  | nil => rfl
  | cons _ _ => rfl

/- The first value is written in front of the others. -/
theorem encodeAll_cons
    (c : Codec α)
    (a : α)
    (rest : List α) :
    c.encodeAll (a :: rest) = (do
      let head ← c.encode a
      let tail ← c.encodeAll rest
      return head ++ tail) := by
  simp only [encodeAll, List.mapM_cons, bind_assoc, pure_bind,
    List.flatten_cons]

theorem Mirrors.encodeElements
    (h : Mirrors s nested type c R)
    (field : String)
    {vs : List Value}
    {as : List α}
    (hElements : List.Forall₂ R vs as) :
    encodeElements s field type vs =
      (c.encodeAll as).mapError .wire := by
  induction hElements with
  | nil =>
      rw [Value.encodeElements]
      rfl
  | cons hHead _ ih =>
      rw [Value.encodeElements, encodeAll_cons,
        Outcome.mapError_bind, h.encode field _ _ hHead, ih]
      refine bind_congr fun head => ?_
      rw [Outcome.mapError_bind]
      rfl

theorem mirrors_list
    (h : Mirrors s nested type c R) :
    Mirrors s nested (.list type) (list c) (.list R) where
  read := by
    refine Reader.alike_bind (Reader.alike_wire _) ?_
    intro size _ hSame
    rcases hSame with rfl
    refine Reader.alike_bind_pure
      (Reader.alike_times h.read size) ?_
    intro vs as hElements
    exact ⟨vs, rfl, hElements⟩
  encode := by
    intro field _ as hLike
    rcases hLike with ⟨vs, rfl, hElements⟩
    simp only [encodeAs, list, Outcome.mapError_bind]
    rw [hElements.length_eq, h.encodeElements field hElements]
    rfl
  isZero := by
    intro _ as h
    rcases h with ⟨vs, rfl, hElements⟩
    rw [Value.isZero]
    exact isEmpty_eq_of_forall₂ hElements

end Codec

end TagWire

------------------------------------------------------------
-- Maps
------------------------------------------------------------

namespace TagWire

namespace Codec

open Value

/-
  A codec mirrors a kind of key when its keys are read and
  written alike and stand in the same order.
-/
structure MirrorsKey
    {κ : Type}
    [Ord κ]
    (kind : ScalarKind)
    (c : Codec κ)
    (key : κ → MapKey) : Prop where
  read :
    Reader.Alike (fun k k' => k = key k')
      (decodeKey kind) c.read
  encode :
    ∀ k, encodeKey kind (key k) = (c.encode k).mapError .wire
  order : ∀ k k', compare (key k) (key k') = compare k k'

variable {κ α : Type}
variable {s : ResolvedSchema}
variable {nested : MessageDecoder}
variable {kind : ScalarKind}
variable {type : ResolvedType}
variable {c : Codec κ}
variable {d : Codec α}
variable {key : κ → MapKey}
variable {R : Likeness α}

theorem mirrorsKey_string :
    MirrorsKey .string string MapKey.string where
  read := by
    refine Reader.alike_bind_pure (Reader.alike_wire _) ?_
    intro text _ h
    rcases h with rfl
    rfl
  encode text := by
    rw [encodeKey, if_pos rfl]
    rfl
  order k k' := by
    show MapKey.order (.string k) (.string k') = _
    simp [MapKey.order, MapKey.rank, MapKey.magnitude,
      MapKey.text]

/- Keys in the same order are as many. -/
theorem MirrorsKey.injective
    {κ : Type}
    [Ord κ]
    [Std.LawfulEqOrd κ]
    {kind : ScalarKind}
    {c : Codec κ}
    {key : κ → MapKey}
    (h : MirrorsKey kind c key) :
    Function.Injective key := by
  intro k k' hSame
  have hCompare : compare k k' = .eq := by
    rw [← h.order, hSame]
    exact Std.ReflOrd.compare_self
  exact Std.LawfulEqOrd.eq_of_compare hCompare

/- Bits are in the order of the natural numbers they are. -/
theorem compare_toNat
    {n : Nat}
    (w w' : BitVec n) :
    compare (w.toNat : Int) (w'.toNat : Int) = compare w w' := by
  show compareOfLessAndEq _ _ = compareOfLessAndEq _ _
  simp only [compareOfLessAndEq, BitVec.lt_def, Int.ofNat_lt,
    Int.ofNat_inj, BitVec.toNat_inj]

/- Unsigned keys are carried as their bits. -/
theorem mirrorsKey_int
    {k : IntKind}
    (hSign : k.isSigned = false) :
    MirrorsKey (.num (.int k)) (number (.int k))
      (MapKey.int k) where
  read := by
    refine Reader.alike_bind_pure (Reader.alike_wire _) ?_
    intro word _ h
    rcases h with rfl
    rfl
  encode _ := if_pos rfl
  order w w' := by
    show MapKey.order (.int k w) (.int k w') = _
    simp only [MapKey.order, MapKey.rank, MapKey.magnitude,
      MapKey.text, IntKind.value, hSign, Bool.false_eq_true,
      if_false, Std.ReflCmp.compare_self, Ordering.then_eq,
      Ordering.eq_then]
    exact compare_toNat w w'

theorem Mirrors.encodeEntries
    [Ord κ]
    (hKey : MirrorsKey kind c key)
    (h : Mirrors s nested type d R)
    (field : String)
    {entries : List (MapKey × Value)}
    {entries' : List (κ × α)}
    (hMatch :
      Keyed.EntriesMatch (fun k k' => k = key k') R entries
        entries') :
    encodeEntries s field kind type entries =
      ((entry c d).encodeAll entries').mapError .wire := by
  induction hMatch with
  | nil =>
      rw [Value.encodeEntries]
      rfl
  | @cons e e' _ _ hHead _ ih =>
      rcases e with ⟨k, v⟩
      rcases hHead with ⟨rfl, hValue⟩
      rw [Value.encodeEntries, encodeAll_cons, ih, hKey.encode,
        h.encode field _ _ hValue]
      simp only [entry, Outcome.mapError_bind, bind_assoc,
        Outcome.mapError_pure, pure_bind]

theorem mirrors_map
    [Ord κ]
    [Std.TransOrd κ]
    [Std.LawfulEqOrd κ]
    (hKey : MirrorsKey kind c key)
    (h : Mirrors s nested type d R) :
    Mirrors s nested (.map kind type) (map c d)
      (.map key R) where
  read := by
    have hEntry :
        Reader.Alike
          (fun e e' => e.1 = key e'.1 ∧ R e.2 e'.2)
          (do
            let k ← decodeKey kind
            let v ← decodeAs s nested type
            return (k, v))
          (entry c d).read := by
      refine Reader.alike_bind hKey.read fun k k' hk => ?_
      refine Reader.alike_bind h.read fun v a ha => ?_
      exact Reader.alike_pure ⟨hk, ha⟩
    simp only [map, list, bind_assoc]
    refine Reader.alike_bind (Reader.alike_wire _) ?_
    intro size _ hSame
    rcases hSame with rfl
    refine Reader.alike_bind (Reader.alike_times hEntry size) ?_
    intro entries entries' hMatch
    refine Reader.alike_pure ⟨_, rfl, ?_⟩
    refine Keyed.entriesMatch_ofList ?_ hMatch
    intro _ _ k k' hSame hSame'
    rcases hSame with rfl
    rcases hSame' with rfl
    exact hKey.order k k'
  encode := by
    intro field _ table hLike
    rcases hLike with ⟨entries, rfl, hMatch⟩
    simp only [encodeAs, map, list, Outcome.mapError_bind]
    rw [hMatch.length_eq, h.encodeEntries hKey field hMatch]
    rfl
  isZero := by
    intro _ table h
    rcases h with ⟨entries, rfl, hMatch⟩
    rw [Value.isZero]
    exact isEmpty_eq_of_forall₂ hMatch

end Codec

end TagWire

------------------------------------------------------------
-- Messages
------------------------------------------------------------

namespace TagWire

namespace Codec

open Value

variable {α : Type}
variable {s : ResolvedSchema}
variable {nested : MessageDecoder}
variable {name : String}
variable {R : Likeness α}

/-
  Messages inside others are read alike if they are alone, and
  take up the same bytes.
-/
theorem mirrors_nested
    {zero : α}
    {encode : α → Except WireError (List UInt8)}
    {decode : List UInt8 → Except WireError α}
    {inspect : α → String}
    (hMessage :
      ∀ v a, R v a → ∃ fields, v = .message name fields)
    (hEncode :
      ∀ v a, R v a → v.encode s = (encode a).mapError .wire)
    (hDecode :
      ∀ data, Outcome.Alike R (nested name data) (decode data)) :
    Mirrors s nested (.named (.message name))
      (Codec.nested zero encode decode inspect) R where
  read := by
    refine Reader.alike_bind Reader.alike_lookahead ?_
    intro ahead _ h
    rcases h with rfl
    refine Reader.alike_bind
      (Reader.alike_ofExcept (hDecode ahead)) ?_
    intro v a ha
    rw [hEncode v a ha]
    refine Reader.alike_bind
      (Reader.alike_ofExcept (Outcome.alike_mapError _)) ?_
    intro bytes _ h
    rcases h with rfl
    refine Reader.alike_bind (Reader.alike_wire _) ?_
    intro _ _ _
    exact Reader.alike_pure ha
  encode := by
    intro field v a ha
    rcases hMessage v a ha with ⟨fields, rfl⟩
    rw [encodeAs]
    exact hEncode _ a ha
  isZero := by
    intro v a ha
    rcases hMessage v a ha with ⟨fields, rfl⟩
    rw [Value.isZero]
    rfl

theorem mirrors_option
    {type : ResolvedType}
    {c : Codec α}
    (hSet : ∀ a, c.isZero a = false)
    (h : Mirrors s nested type c R) :
    Mirrors s nested type (option c) R.option where
  read := by
    rw [← bind_pure (decodeAs s nested type)]
    refine Reader.alike_bind h.read fun v a ha => ?_
    exact Reader.alike_pure ⟨a, rfl, ha⟩
  encode := by
    intro field v _ hLike
    rcases hLike with ⟨a, rfl, ha⟩
    exact h.encode field v a ha
  isZero := by
    intro v _ hLike
    rcases hLike with ⟨a, rfl, ha⟩
    rw [h.isZero v a ha, hSet a]
    rfl

end Codec

end TagWire

------------------------------------------------------------
-- Fields
------------------------------------------------------------

namespace TagWire

namespace Codec

open Likeness Value

/-
  A codec mirrors the type of a field when it also has a zero
  for the field that is left out.
-/
structure MirrorsField
    {α : Type}
    (s : ResolvedSchema)
    (nested : MessageDecoder)
    (type : ResolvedType)
    (c : Codec α)
    (R : Likeness α) : Prop where
  mirrors : c.Mirrors s nested type R
  zero : c.isZero c.zero = true
  faithful : Faithful (R.OrZero c.zero)

variable {κ α : Type}
variable {s : ResolvedSchema}
variable {nested : MessageDecoder}
variable {kind : ScalarKind}
variable {type : ResolvedType}
variable {c : Codec α}
variable {R : Likeness α}

theorem field_number
    (k : NumKind) :
    MirrorsField s nested (.scalar (.num k)) (number k)
      (.number k) where
  mirrors := mirrors_number k
  zero := by
    cases k with
    | int k => exact beq_self_eq_true _
    | float k => cases k <;> rfl
  faithful := (faithful_number k).orZero _

theorem field_string :
    MirrorsField s nested (.scalar .string) string .string where
  mirrors := mirrors_string
  zero := rfl
  faithful := faithful_string.orZero _

theorem field_list
    (h : c.Mirrors s nested type R)
    (hFaithful : Faithful R) :
    MirrorsField s nested (.list type) (list c) R.list where
  mirrors := mirrors_list h
  zero := rfl
  faithful := hFaithful.list.orZero _

theorem field_map
    [Ord κ]
    [Std.TransOrd κ]
    [Std.LawfulEqOrd κ]
    {d : Codec κ}
    {key : κ → MapKey}
    (hKey : MirrorsKey kind d key)
    (h : c.Mirrors s nested type R)
    (hFaithful : Faithful R) :
    MirrorsField s nested (.map kind type) (map d c)
      (.map key R) where
  mirrors := mirrors_map hKey h
  zero := rfl
  faithful := (hFaithful.map hKey.injective).orZero _

theorem field_option
    (hSet : ∀ a, c.isZero a = false)
    (h : c.Mirrors s nested type R)
    (hFaithful : Faithful R) :
    MirrorsField s nested type (option c) R.option where
  mirrors := mirrors_option hSet h
  zero := rfl
  faithful := hFaithful.orZero_option

end Codec

end TagWire
