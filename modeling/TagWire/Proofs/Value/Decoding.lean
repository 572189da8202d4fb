import TagWire.Proofs.Wire.Passing
import TagWire.Value.Decode

/-
  Decoding a message calls the decoder of those inside it on
  fewer bytes only. So the depth that the decoder is given
  does not show: a message is decoded from the fields of its
  declaration, with those inside decoded likewise.

  Main declarations:
    * `Value.decodeBody`
    * `Value.decodeBody_cons_eq_ok_iff`
    * `Value.decodeWith_congr`
    * `Value.decode_eq`
-/

------------------------------------------------------------
-- Agreement on Few Bytes
------------------------------------------------------------

namespace TagWire

namespace Reader

variable {ε α β : Type}
variable {n : Nat}

/- Two readers do the same wherever few bytes remain. -/
def AgreeWithin
    (n : Nat)
    (r r' : Reader ε α) : Prop :=
  ∀ c : Cursor, c.remaining.length ≤ n → r c = r' c

theorem agree_refl
    (r : Reader ε α) :
    AgreeWithin n r r :=
  fun _ _ => rfl

/- What goes on behind a reader has no more bytes than it. -/
theorem agree_bind
    {r r' : Reader ε α}
    {f f' : α → Reader ε β}
    (hForward : Forward r)
    (hr : AgreeWithin n r r')
    (hf : ∀ a, AgreeWithin n (f a) (f' a)) :
    AgreeWithin n (r >>= f) (r' >>= f') := by
  intro c hc
  simp only [bind]
  rw [← hr c hc]
  rcases hRun : r c with ⟨_ | a, d⟩
  · rfl
  · rcases hForward c a d hRun with ⟨bs, hPasses⟩
    have hLength := hPasses.length_remaining_eq
    exact hf a d (by omega)

theorem agree_times
    {r r' : Reader ε α}
    (hForward : Forward r)
    (hr : AgreeWithin n r r')
    (rounds : Nat) :
    AgreeWithin n (times r rounds) (times r' rounds) := by
  induction rounds with
  | zero => exact agree_refl _
  | succ rounds ih =>
      rw [times_succ, times_succ]
      refine agree_bind hForward hr fun a => ?_
      refine agree_bind (forward_times hForward rounds) ih
        fun rest => ?_
      exact agree_refl _

end Reader

end TagWire

------------------------------------------------------------
-- Moving Forward
------------------------------------------------------------

namespace TagWire

namespace Reader

variable {ε : Type}

theorem forward_tag :
    Forward (tag : Reader ε (Option UInt8)) := by
  intro c t c' h
  cases hRemaining : c.remaining with
  | nil =>
      rw [tag_of_nil hRemaining] at h
      cases h
      exact ⟨[], Cursor.Passes.refl c⟩
  | cons b rest =>
      rcases tag_of_cons (ε := ε) hRemaining with
        ⟨d, hTag, hPasses⟩
      rw [hTag] at h
      cases h
      exact ⟨[b], hPasses⟩

end Reader

namespace Value

open Reader

variable {s : ResolvedSchema}
variable {nested : MessageDecoder}

theorem forward_decodeKey
    (kind : ScalarKind) :
    Forward (decodeKey kind) := by
  unfold decodeKey
  split
  · exact forward_bind (forward_mapError (forward_number _))
      fun _ => forward_pure _
  · exact forward_fail _
  · exact forward_bind (forward_mapError forward_string)
      fun _ => forward_pure _

theorem forward_decodeScalar
    (kind : ScalarKind) :
    Forward (decodeScalar kind) := by
  unfold decodeScalar
  split
  · exact forward_bind (forward_mapError (forward_number _))
      fun _ => forward_pure _
  · exact forward_bind (forward_mapError forward_string)
      fun _ => forward_pure _

theorem forward_decodeEnum
    (name : String) :
    Forward (decodeEnum s name) := by
  unfold decodeEnum
  split
  · exact forward_fail _
  · refine forward_bind (forward_mapError (forward_number _))
      fun word => ?_
    split
    · exact forward_pure _
    · exact forward_fail _

theorem forward_decodeNested
    (name : String) :
    Forward (decodeNested s nested name) := by
  refine forward_bind forward_lookahead fun ahead => ?_
  refine forward_bind (forward_ofExcept _) fun v => ?_
  refine forward_bind (forward_ofExcept _) fun bytes => ?_
  exact forward_bind (forward_mapError (forward_skip _))
    fun _ => forward_pure _

/- A value of any type is read moving forward. -/
theorem forward_decodeAs
    (type : ResolvedType) :
    Forward (decodeAs s nested type) := by
  induction type with
  | scalar kind => exact forward_decodeScalar kind
  | named reference =>
      cases reference with
      | enum name => exact forward_decodeEnum name
      | message name => exact forward_decodeNested name
  | list element ih =>
      refine forward_bind (forward_mapError forward_length)
        fun size => ?_
      exact forward_bind (forward_times ih size)
        fun elements => forward_pure _
  | map key value ih =>
      refine forward_bind (forward_mapError forward_length)
        fun size => ?_
      refine forward_bind (forward_times ?_ size)
        fun entries => forward_pure _
      exact forward_bind (forward_decodeKey key) fun k =>
        forward_bind ih fun v => forward_pure _

theorem forward_decodeFields
    (declared : List (Field TypeRef))
    (tag : Option UInt8) :
    Forward (decodeFields s nested declared tag) := by
  induction declared generalizing tag with
  | nil => exact forward_pure _
  | cons f rest ih =>
      unfold decodeFields
      split
      · refine forward_bind (forward_decodeAs f.type)
          fun v => ?_
        refine forward_bind forward_tag fun next => ?_
        exact forward_bind (ih next)
          fun others => forward_pure _
      · split
        · exact ih tag
        · exact forward_fail _

end Value

end TagWire

------------------------------------------------------------
-- The Body of a Message
------------------------------------------------------------

namespace TagWire

namespace Value

open Reader

/-
  Read the fields of a message, the tag of the first one
  included.
-/
def decodeBody
    (s : ResolvedSchema)
    (nested : MessageDecoder)
    (declared : List (Field TypeRef)) :
    Reader CodecError (List (String × Value)) := do
  let tag ← Reader.tag
  decodeFields s nested declared tag

variable {s : ResolvedSchema}
variable {nested nested' : MessageDecoder}
variable {f : Field TypeRef}
variable {declared : List (Field TypeRef)}
variable {c d : Cursor}

/- A message whose declaration is known is decoded by it. -/
theorem decodeWith_of_message?
    {name : String}
    {m : Message TypeRef}
    (h : s.message? name = some m)
    (data : List UInt8) :
    decodeWith s nested name data =
      ((decodeBody s nested m.fields).eval data).map fun fs =>
        message m.name (Keyed.ofList fs) := by
  unfold decodeWith
  rw [h]
  rfl

/- The tag of a field is followed by its value. -/
theorem decodeBody_of_set
    (h : c.Passes [f.seq] d) :
    decodeBody s nested (f :: declared) c =
      (do
        let v ← decodeAs s nested f.type
        let others ← decodeBody s nested declared
        return (f.name, v) :: others :
          Reader CodecError _) d := by
  rcases tag_of_cons (ε := CodecError) h.remaining_eq with
    ⟨d', hTag, hPasses⟩
  obtain rfl := hPasses.unique h
  have hFields :
      decodeFields s nested (f :: declared) (some f.seq) =
        (do
          let v ← decodeAs s nested f.type
          let others ← decodeBody s nested declared
          return (f.name, v) :: others) := by
    rw [decodeFields, if_pos rfl]
    simp only [decodeBody, bind_assoc]
  rw [← hFields]
  exact bind_of_ok hTag

/- A field that is not ahead is passed over if optional. -/
theorem decodeBody_of_unset
    (hHead : c.remaining.head? ≠ some f.seq)
    (hOptional : f.optional = true) :
    decodeBody s nested (f :: declared) c =
      decodeBody s nested declared c := by
  have hFields :
      decodeFields s nested (f :: declared)
          c.remaining.head? =
        decodeFields s nested declared c.remaining.head? := by
    rw [decodeFields, if_neg hHead, if_pos hOptional]
  rcases tag_eq (ε := CodecError) c with ⟨d, hTag⟩
  unfold decodeBody
  rw [bind_of_ok hTag, bind_of_ok hTag, hFields]

/- A field that is required has to be ahead. -/
theorem decodeBody_of_missing
    (hHead : c.remaining.head? ≠ some f.seq)
    (hRequired : f.optional = false) :
    (decodeBody s nested (f :: declared) c).1 =
      .error (.wire (.fieldNotFound f.name)) := by
  have hFields :
      decodeFields s nested (f :: declared)
          c.remaining.head? =
        fail (.wire (.fieldNotFound f.name)) := by
    rw [decodeFields, if_neg hHead, hRequired,
      if_neg Bool.false_ne_true]
  rcases tag_eq (ε := CodecError) c with ⟨d, hTag⟩
  unfold decodeBody
  rw [bind_of_ok hTag, hFields]
  rfl

/- A tag that is ahead is passed. -/
theorem exists_passes_tag
    (h : c.remaining.head? = some f.seq) :
    ∃ d, c.Passes [f.seq] d := by
  rcases List.head?_eq_some_iff.mp h with ⟨rest, hRest⟩
  rcases
      Cursor.exists_passes
        (hRest.trans List.singleton_append.symm) with
    ⟨d, hPasses, _⟩
  exact ⟨d, hPasses⟩

/-
  The body of a message is read field by field, each one from
  behind its tag or left out.
-/
theorem decodeBody_cons_eq_ok_iff
    {found : List (String × Value)}
    {c' : Cursor} :
    decodeBody s nested (f :: declared) c = (.ok found, c') ↔
      (∃ d v e others,
        c.Passes [f.seq] d ∧
          decodeAs s nested f.type d = (.ok v, e) ∧
          decodeBody s nested declared e = (.ok others, c') ∧
          found = (f.name, v) :: others) ∨
      (c.remaining.head? ≠ some f.seq ∧ f.optional = true ∧
        decodeBody s nested declared c = (.ok found, c')) := by
  by_cases hHead : c.remaining.head? = some f.seq
  · rcases exists_passes_tag hHead with ⟨d, hPasses⟩
    rw [decodeBody_of_set hPasses]
    simp only [bind_eq_ok_iff, pure_eq_ok_iff]
    constructor
    · intro h
      rcases h with
        ⟨v, e, hValue, others, e', hOthers, rfl, rfl⟩
      exact Or.inl ⟨d, v, e, others, hPasses, hValue,
        hOthers, rfl⟩
    · intro h
      rcases h with
        ⟨d', v, e, others, hPasses', hValue, hOthers, rfl⟩ |
         ⟨hNe, _⟩
      · obtain rfl := hPasses.unique hPasses'
        exact ⟨v, e, hValue, others, c', hOthers, rfl, rfl⟩
      · exact absurd hHead hNe
  · have hNotSet :
        ¬ ∃ d, c.Passes [f.seq] d := by
      intro h
      rcases h with ⟨d, hPasses⟩
      exact hHead (by rw [hPasses.remaining_eq]; rfl)
    cases hOptional : f.optional with
    | true =>
        rw [decodeBody_of_unset hHead hOptional]
        constructor
        · intro h
          exact Or.inr ⟨hHead, rfl, h⟩
        · intro h
          rcases h with
            ⟨d, _, _, _, hPasses, _⟩ | ⟨_, _, h⟩
          · exact absurd ⟨d, hPasses⟩ hNotSet
          · exact h
    | false =>
        have hError :
            (decodeBody s nested (f :: declared) c).1 =
              .error (.wire (.fieldNotFound f.name)) :=
          decodeBody_of_missing hHead hOptional
        constructor
        · intro h
          rw [h] at hError
          cases hError
        · intro h
          rcases h with
            ⟨d, _, _, _, hPasses, _⟩ | ⟨_, h, _⟩
          · exact absurd ⟨d, hPasses⟩ hNotSet
          · cases h

/- Without fields nothing is found. -/
theorem decodeBody_nil_eq
    (c : Cursor) :
    ∃ d, decodeBody s nested [] c = (.ok [], d) := by
  rcases tag_eq (ε := CodecError) c with ⟨d, hTag⟩
  refine ⟨d, ?_⟩
  simp only [decodeBody, decodeFields, bind, hTag]
  rfl

------------------------------------------------------------
-- Decoders inside Decoders
------------------------------------------------------------

/- Decoders that agree on few bytes give the same values. -/
theorem decodeAs_agree
    {n : Nat}
    (hNested :
      ∀ name data, data.length ≤ n →
        nested name data = nested' name data)
    (type : ResolvedType) :
    AgreeWithin n
      (decodeAs s nested type) (decodeAs s nested' type) := by
  induction type with
  | scalar kind => exact agree_refl _
  | named reference =>
      cases reference with
      | enum name => exact agree_refl _
      | message name =>
          intro c hc
          have hSame := hNested name c.remaining hc
          simp only [decodeAs, decodeNested, bind, lookahead]
          rw [hSame]
  | list element ih =>
      refine agree_bind (forward_mapError forward_length)
        (agree_refl _) fun size => ?_
      have hForward : Forward (decodeAs s nested element) :=
        forward_decodeAs element
      exact agree_bind (forward_times hForward size)
        (agree_times hForward ih size) fun _ => agree_refl _
  | map key value ih =>
      refine agree_bind (forward_mapError forward_length)
        (agree_refl _) fun size => ?_
      have hForward : Forward (decodeAs s nested value) :=
        forward_decodeAs value
      have hEntry :
          Forward (do
            let k ← decodeKey key
            let v ← decodeAs s nested value
            return (k, v)) :=
        forward_bind (forward_decodeKey key) fun k =>
          forward_bind hForward fun v => forward_pure _
      refine agree_bind (forward_times hEntry size)
        (agree_times hEntry ?_ size) fun _ => agree_refl _
      refine agree_bind (forward_decodeKey key)
        (agree_refl _) fun k => ?_
      exact agree_bind hForward ih fun v => agree_refl _

theorem decodeFields_agree
    {n : Nat}
    (hNested :
      ∀ name data, data.length ≤ n →
        nested name data = nested' name data)
    (declared : List (Field TypeRef))
    (tag : Option UInt8) :
    AgreeWithin n
      (decodeFields s nested declared tag)
      (decodeFields s nested' declared tag) := by
  induction declared generalizing tag with
  | nil => exact agree_refl _
  | cons f rest ih =>
      unfold decodeFields
      split
      · refine agree_bind (forward_decodeAs f.type)
          (decodeAs_agree hNested f.type) fun v => ?_
        refine agree_bind forward_tag (agree_refl _)
          fun next => ?_
        exact agree_bind (forward_decodeFields rest next)
          (ih next) fun others => agree_refl _
      · split
        · exact ih tag
        · exact agree_refl _

/- Without a tag no value is read. -/
theorem decodeFields_none
    (declared : List (Field TypeRef)) :
    decodeFields s nested declared none =
      decodeFields s nested' declared none := by
  induction declared with
  | nil => rfl
  | cons f rest ih =>
      have hNone : none ≠ some f.seq := by simp
      unfold decodeFields
      rw [if_neg hNone, if_neg hNone, ih]

/-
  A message stands behind a tag at least when it is inside
  another, so what decoders do with all the bytes of the
  outer one does not matter.
-/
theorem decodeWith_congr
    {n : Nat}
    (hNested :
      ∀ name data, data.length < n →
        nested name data = nested' name data)
    (name : String)
    {data : List UInt8}
    (hData : data.length ≤ n) :
    decodeWith s nested name data =
      decodeWith s nested' name data := by
  cases hMessage : s.message? name with
  | none =>
      unfold decodeWith
      rw [hMessage]
  | some m =>
      rw [decodeWith_of_message? hMessage,
        decodeWith_of_message? hMessage]
      have hBody :
          decodeBody s nested m.fields (Cursor.start data) =
            decodeBody s nested' m.fields
              (Cursor.start data) := by
        simp only [decodeBody, bind]
        cases data with
        | nil =>
            rw [tag_of_nil (Cursor.remaining_start [])]
            simp only
            rw [decodeFields_none]
        | cons b rest =>
            rcases
                tag_of_cons (ε := CodecError)
                  (Cursor.remaining_start (b :: rest)) with
              ⟨d, hTag, hPasses⟩
            have hLength := hPasses.length_remaining_eq
            simp only [Cursor.remaining_start,
              List.length_cons, List.length_nil] at hLength hData
            simp only [hTag]
            apply decodeFields_agree (n := n - 1)
            · intro name' data' hShort
              exact hNested name' data' (by omega)
            · omega
      unfold Reader.eval
      rw [hBody]

------------------------------------------------------------
-- Depth
------------------------------------------------------------

/-
  Decode a message of so many levels, given how the messages
  below them are decoded.
-/
def decodeFrom
    (s : ResolvedSchema)
    (base : MessageDecoder) :
    Nat → MessageDecoder
| 0 => base
| depth + 1 => decodeWith s (decodeFrom s base depth)

theorem decodeWithin_eq_decodeFrom
    (depth : Nat) :
    decodeWithin s depth =
      decodeFrom s (fun name _ => .error (.unknownMessage name))
        (depth + 1) := by
  induction depth with
  | zero => rfl
  | succ depth ih =>
      rw [decodeWithin, ih]
      rfl

/- With more levels than bytes, none is reached below them. -/
theorem decodeFrom_congr
    {base base' : MessageDecoder}
    {depth depth' : Nat}
    (name : String)
    {data : List UInt8}
    (h : data.length < depth)
    (h' : data.length < depth') :
    decodeFrom s base depth name data =
      decodeFrom s base' depth' name data := by
  induction depth generalizing depth' name data with
  | zero => exact absurd h (Nat.not_lt_zero _)
  | succ depth ih =>
      cases depth' with
      | zero => exact absurd h' (Nat.not_lt_zero _)
      | succ depth' =>
          rw [decodeFrom, decodeFrom]
          apply decodeWith_congr (n := data.length) _ name
            (Nat.le_refl _)
          intro name' data' hShort
          exact ih name' (by omega) (by omega)

/- So it does not matter how messages below are decoded. -/
theorem decodeFrom_eq
    (base : MessageDecoder)
    {depth : Nat}
    (name : String)
    {data : List UInt8}
    (h : data.length < depth) :
    decodeFrom s base depth name data = decode s name data := by
  rw [decode, decodeWithin_eq_decodeFrom]
  exact decodeFrom_congr name h (Nat.lt_succ_self _)

/- A depth of as many levels as there are bytes is enough. -/
theorem decodeWithin_eq
    {depth : Nat}
    (name : String)
    {data : List UInt8}
    (h : data.length ≤ depth) :
    decodeWithin s depth name data = decode s name data := by
  rw [decodeWithin_eq_decodeFrom]
  exact decodeFrom_eq _ name (Nat.lt_succ_of_le h)

/- The messages inside a message are decoded as it is. -/
theorem decode_eq
    (name : String)
    (data : List UInt8) :
    decode s name data = decodeWith s (decode s) name data := by
  rw [decode, decodeWithin_eq_decodeFrom, decodeFrom]
  apply decodeWith_congr (n := data.length) _ name (Nat.le_refl _)
  intro name' data' hShort
  exact decodeFrom_eq _ name' hShort

/- What is found in the body of a message is its fields. -/
theorem decode_of_decodeBody
    {name : String}
    {m : Message TypeRef}
    (hMessage : s.message? name = some m)
    {data : List UInt8}
    {found : Except CodecError (List (String × Value))}
    (hBody :
      (decodeBody s (decode s) m.fields
        (Cursor.start data)).1 = found) :
    decode s name data =
      found.map fun fs => message m.name (Keyed.ofList fs) := by
  rw [decode_eq, decodeWith_of_message? hMessage, ← hBody]
  rfl

end Value

end TagWire
