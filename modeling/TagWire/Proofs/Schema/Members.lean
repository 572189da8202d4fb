import TagWire.Proofs.Schema.Recognition

/-
  The parsers of types, fields and methods follow the grammar.
  A type is split into the token that it starts with, which
  decides the rest, and what is behind that token.

  Main declarations:
    * `Parser.recognizes_expect`
    * `Parser.recognizes_name` and `Parser.recognizes_seqNumber`
    * `Parser.recognizes_typeExpr`
    * `Parser.recognizes_field`
    * `Parser.recognizes_method`
-/

------------------------------------------------------------
-- Tokens
------------------------------------------------------------

namespace TagWire

namespace Parser

open Grammar

theorem recognizes_expect
    {n : Nat}
    (e : Expectation) :
    Recognizes n (expect e)
      (Single fun t u => e.admits t = true ∧ u = t) := by
  apply recognizes_token
    (fun t =>
      if e.admits t then .ok t else .error (.expected e))
  · intro s
    unfold expect
    split <;> rfl
  · intro t u
    split
    · next h => simp [h, eq_comm]
    · next h => simp [h]
  · rintro t u ⟨h, rfl⟩
    exact ne_endOfText_of_admits h
  · have hAdmits :
        ∃ t : Token, e.admits t = true := by
      cases e with
      | mark m =>
          exact ⟨⟨.mark m, "", .first⟩, beq_self_eq_true _⟩
      | keyword k =>
          exact ⟨⟨.keyword k, "", .first⟩, beq_self_eq_true _⟩
      | number => exact ⟨⟨.number, "", .first⟩, rfl⟩
      | mapKey =>
          exact ⟨⟨.builtin, "string", .first⟩, by decide⟩
      | _ => exact ⟨⟨.identifier, "", .first⟩, rfl⟩
    rcases hAdmits with ⟨t, h⟩
    exact ⟨t, t, h, rfl⟩

theorem recognizes_mark
    {n : Nat}
    (m : Mark) :
    Recognizes n (expect (.mark m))
      (Single fun t u => t.kind = .mark m ∧ u = t) := by
  refine (recognizes_expect (.mark m)).congr fun ts t => ?_
  simp [Expectation.admits]

theorem recognizes_keyword
    {n : Nat}
    (k : Keyword) :
    Recognizes n (expect (.keyword k))
      (Single fun t u => t.kind = .keyword k ∧ u = t) := by
  refine (recognizes_expect (.keyword k)).congr fun ts t => ?_
  simp [Expectation.admits]

theorem recognizes_name
    {n : Nat}
    (e : Expectation)
    (hName : ∀ t, e.admits t = (t.kind == .identifier)) :
    Recognizes n (name e)
      (Single fun t m => IsIdentifier t ∧ m = t.text) := by
  apply recognizes_token
    (fun t =>
      if t.kind = .identifier then
        if isIdentifier t.text then
          .ok t.text
        else
          .error .invalidIdentifier
      else
        .error (.expected e))
  · intro s
    unfold name
    rw [bind_expect, hName]
    simp only [beq_iff_eq]
    split
    · split <;> rfl
    · rfl
  · intro t m
    simp only [IsIdentifier, ← isIdentifier_iff]
    split
    · next hKind =>
        split
        · next hText => simp [hKind, hText, eq_comm]
        · next hText => simp [hText]
    · next hKind => simp [hKind]
  · rintro t m ⟨⟨hKind, _⟩, rfl⟩
    simp [hKind]
  · refine ⟨⟨.identifier, "a", .first⟩, _, ⟨rfl, ?_⟩, rfl⟩
    exact isIdentifier_iff.mp (by decide)

theorem recognizes_seqNumber
    {n : Nat} :
    Recognizes n seqNumber
      (Single fun t m =>
        t.kind = .number ∧ IsSeqNumber t.text m) := by
  apply recognizes_token
    (fun t =>
      if t.kind = .number then
        (seqNumber? t.text).elim (.error .invalidSeq) .ok
      else
        .error (.expected .number))
  · intro s
    unfold seqNumber
    rw [bind_expect]
    simp only [Expectation.admits, beq_iff_eq]
    split
    · cases seqNumber? s.current.text <;> rfl
    · rfl
  · intro t m
    simp only [← seqNumber?_eq_some_iff]
    split
    · next hKind =>
        cases seqNumber? t.text <;> simp [hKind]
    · next hKind => simp [hKind]
  · rintro t m ⟨hKind, _⟩
    simp [hKind]
  · refine ⟨⟨.number, "0", .first⟩, 0, rfl, ?_⟩
    exact seqNumber?_eq_some_iff.mp (by decide)

end Parser

end TagWire

------------------------------------------------------------
-- The Start of a Type
------------------------------------------------------------

namespace TagWire

namespace Parser

open Grammar

/- How a type starts. -/
inductive TypeWord where
| scalar (kind : ScalarKind)
| named (reference : String)
| list
| map

/- Take the token that a type starts with. -/
def typeWord : Parser TypeWord := do
  let t ← expect .type
  if t.kind = .identifier then
    if isIdentifier t.text then
      return .named t.text
    else
      reject .invalidIdentifier t
  else if t.text = "list" then
    return .list
  else if t.text = "map" then
    return .map
  else
    match ScalarKind.ofName? t.text with
    | some kind => return .scalar kind
    | none => reject .unexpected t

/- Take what is behind the start of a type. -/
def typeRest : TypeWord → Parser (TypeExpr String)
| .scalar kind => return .scalar kind
| .named reference => return .named reference
| .list => do
    let _ ← listOpening
    let element ← typeExpr
    let _ ← expect (.mark .rightBracket)
    return .list element
| .map => do
    let key ← mapOpening
    let value ← typeExpr
    return .map key value

/- A type is its start and what is behind it. -/
theorem typeExpr_eq :
    typeExpr = (typeWord >>= typeRest) := by
  funext s
  fun_cases typeExpr s
  all_goals
    simp [typeWord, typeRest, reject, bind_apply, pure_apply,
      Except.bind, -bind_pure_comp, *]

/- A token that a type starts with. -/
def IsTypeWord
    (t : Token) :
    TypeWord → Prop
| .scalar kind => t.kind = .builtin ∧ t.text = kind.name
| .named reference => IsIdentifier t ∧ reference = t.text
| .list => t.kind = .builtin ∧ t.text = "list"
| .map => t.kind = .builtin ∧ t.text = "map"

/- What the token that a type starts with is read as. -/
def readTypeWord
    (t : Token) :
    Except ParseFault TypeWord :=
  if t.kind = .identifier then
    if isIdentifier t.text then
      .ok (.named t.text)
    else
      .error .invalidIdentifier
  else if t.kind = .builtin then
    if t.text = "list" then
      .ok .list
    else if t.text = "map" then
      .ok .map
    else
      match ScalarKind.ofName? t.text with
      | some kind => .ok (.scalar kind)
      | none => .error .unexpected
  else
    .error (.expected .type)

/- No scalar is named like a list or a map. -/
theorem name_ne_list_map
    (kind : ScalarKind) :
    kind.name ≠ "list" ∧ kind.name ≠ "map" := by
  have hAll :
      ∀ k ∈ ScalarKind.all,
        k.name ≠ "list" ∧ k.name ≠ "map" := by
    decide
  exact hAll kind kind.mem_all

theorem readTypeWord_eq_ok_iff
    {t : Token}
    {w : TypeWord} :
    readTypeWord t = .ok w ↔ IsTypeWord t w := by
  unfold readTypeWord
  by_cases hName : t.kind = .identifier
  · by_cases hText : isIdentifier t.text = true
    · have hIs := isIdentifier_iff.mp hText
      cases w <;>
        simp [IsTypeWord, IsIdentifier, hName, hText, hIs,
          eq_comm]
    · have hIs := mt isIdentifier_iff.mpr hText
      cases w <;>
        simp [IsTypeWord, IsIdentifier, hName, hText, hIs]
  · by_cases hBuiltin : t.kind = .builtin
    · rw [if_neg hName, if_pos hBuiltin]
      split
      · next hText =>
          cases w <;>
            simp [IsTypeWord, IsIdentifier, hBuiltin, hText]
          exact (name_ne_list_map _).1.symm
      · next hList =>
        split
        · next hText =>
            cases w <;>
              simp [IsTypeWord, IsIdentifier, hBuiltin, hText]
            exact (name_ne_list_map _).2.symm
        · next hMap =>
            cases w <;>
              simp [IsTypeWord, IsIdentifier, hBuiltin, hList,
                hMap, ← ScalarKind.ofName?_eq_some_iff]
            all_goals
              cases ScalarKind.ofName? t.text <;> simp
    · cases w <;>
        simp [IsTypeWord, IsIdentifier, hName, hBuiltin]

theorem recognizes_typeWord
    {n : Nat} :
    Recognizes n typeWord (Single IsTypeWord) := by
  apply recognizes_token readTypeWord
  · intro s
    unfold typeWord readTypeWord
    rw [bind_expect]
    by_cases hName : s.current.kind = .identifier
    · have hAdmits : Expectation.type.admits s.current := by
        simp [Expectation.admits, hName]
      rw [if_pos hAdmits]
      simp only [if_pos hName]
      split <;> rfl
    · by_cases hBuiltin : s.current.kind = .builtin
      · have hAdmits : Expectation.type.admits s.current := by
          simp [Expectation.admits, hBuiltin]
        rw [if_pos hAdmits]
        simp only [if_neg hName, if_pos hBuiltin]
        split
        · rfl
        · split
          · rfl
          · cases ScalarKind.ofName? s.current.text <;> rfl
      · have hAdmits : ¬ Expectation.type.admits s.current := by
          simp [Expectation.admits, hName, hBuiltin]
        rw [if_neg hAdmits]
        simp only [if_neg hName, if_neg hBuiltin]
  · exact fun t w => readTypeWord_eq_ok_iff
  · intro t w h
    cases w with
    | named reference => simp [h.1.1]
    | scalar kind => simp [h.1]
    | list => simp [h.1]
    | map => simp [h.1]
  · exact ⟨⟨.builtin, "list", .first⟩, .list, rfl, rfl⟩

end Parser

end TagWire

------------------------------------------------------------
-- Types
------------------------------------------------------------

namespace TagWire

namespace Parser

open Grammar

theorem recognizes_listOpening
    {n : Nat} :
    Recognizes n listOpening
      (Single fun t _ => t.kind = .mark .leftBracket) := by
  refine (recognizes_bind (recognizes_mark _)
    fun _ _ _ => recognizes_pure ()).congr fun ts u => ?_
  simp only [followed_single_eq_iff]
  constructor
  · rintro ⟨t, _, rfl, hKind, rfl, _⟩
    exact ⟨t, rfl, hKind⟩
  · rintro ⟨t, rfl, hKind⟩
    exact ⟨t, [], rfl, hKind, rfl, trivial⟩

/- The key type of a map, in its brackets. -/
def IsMapOpening
    (ts : List Token)
    (kind : ScalarKind) : Prop :=
  ∃ opening key closing,
    ts = [opening, key, closing] ∧
      opening.kind = .mark .leftBracket ∧
      key.kind = .builtin ∧ key.text = kind.name ∧
      closing.kind = .mark .rightBracket

/- A key type is a builtin that is named like a scalar. -/
theorem admits_mapKey_iff
    {t : Token} :
    Expectation.mapKey.admits t = true ↔
      t.kind = .builtin ∧
        ∃ kind : ScalarKind, t.text = kind.name := by
  simp [Expectation.admits, Option.isSome_iff_exists,
    ScalarKind.ofName?_eq_some_iff]

/- The scalar that an admitted key type names is given. -/
theorem recognizes_mapKey
    {n : Nat}
    {t : Token}
    (h : Expectation.mapKey.admits t = true) :
    Recognizes n
      (match ScalarKind.ofName? t.text with
        | some key => return key
        | none => reject (.expected .mapKey) t)
      (fun ts kind => ts = [] ∧ t.text = kind.name) := by
  rcases admits_mapKey_iff.mp h with ⟨_, kind, hText⟩
  have hKind := ScalarKind.ofName?_eq_some_iff.mpr hText
  rw [hKind]
  refine (recognizes_pure kind).congr fun ts k => ?_
  rw [← ScalarKind.ofName?_eq_some_iff, hKind,
    Option.some.injEq, eq_comm (a := k)]

theorem recognizes_mapOpening
    {n : Nat} :
    Recognizes n mapOpening IsMapOpening := by
  refine Recognizes.congr
    (recognizes_bind (recognizes_mark _) fun _ _ _ =>
      recognizes_bind (recognizes_expect _) fun _ _ h =>
      recognizes_bind (recognizes_mark _) fun _ _ _ =>
      recognizes_mapKey ?_)
    fun ts kind => ?_
  · rcases h with ⟨t, _, hAdmits, rfl⟩
    exact hAdmits
  · simp only [followed_single_eq_iff, admits_mapKey_iff]
    constructor
    · rintro ⟨opening, _, rfl, hOpening,
        key, _, rfl, ⟨hKind, _⟩,
        closing, _, rfl, hClosing, rfl, hText⟩
      exact ⟨opening, key, closing, rfl, hOpening, hKind,
        hText, hClosing⟩
    · rintro ⟨opening, key, closing, rfl, hOpening, hKind,
        hText, hClosing⟩
      exact ⟨opening, _, rfl, hOpening,
        key, _, rfl, ⟨hKind, kind, hText⟩,
        closing, _, rfl, hClosing, rfl, hText⟩

/- What is behind the start of a type. -/
def IsTypeRest :
    TypeWord → List Token → TypeExpr String → Prop
| .scalar kind => fun ts type =>
    ts = [] ∧ type = .scalar kind
| .named reference => fun ts type =>
    ts = [] ∧ type = .named reference
| .list =>
    Followed (Single fun t _ => t.kind = .mark .leftBracket)
      fun _ : Unit =>
    Followed IsType fun element =>
    Followed
      (Single fun t u => t.kind = .mark .rightBracket ∧ u = t)
      fun _ ts type =>
    ts = [] ∧ type = .list element
| .map =>
    Followed IsMapOpening fun key =>
    Followed IsType fun value ts type =>
    ts = [] ∧ type = .map key value

/- A type is one that its first token opens. -/
theorem followed_typeWord_iff
    {ts : List Token}
    {type : TypeExpr String} :
    Followed (Single IsTypeWord) IsTypeRest ts type ↔
      IsType ts type := by
  rw [followed_single_iff]
  constructor
  · rintro ⟨t, w, us, rfl, hWord, hRest⟩
    cases w with
    | scalar kind =>
        rcases hRest with ⟨rfl, rfl⟩
        exact .scalar hWord.1 hWord.2
    | named reference =>
        rcases hRest with ⟨rfl, rfl⟩
        rcases hWord with ⟨hName, rfl⟩
        exact .named hName
    | list =>
        rcases hRest with
          ⟨_, _, _, rfl, ⟨opening, rfl, hOpening⟩,
            vs, element, _, rfl, hElement,
            _, _, _, rfl, ⟨closing, rfl, hClosing, rfl⟩,
            rfl, rfl⟩
        exact .list hWord.1 hWord.2 hOpening hElement hClosing
    | map =>
        rcases hRest with
          ⟨_, key, _, rfl,
            ⟨opening, k, closing, rfl, hOpening, hKeyKind,
              hKeyText, hClosing⟩,
            vs, value, _, rfl, hValue, rfl, rfl⟩
        rw [List.append_nil]
        exact .map hWord.1 hWord.2 hOpening hKeyKind hKeyText
          hClosing hValue
  · intro h
    cases h with
    | scalar hKind hText =>
        exact ⟨_, .scalar _, [], rfl, ⟨hKind, hText⟩, rfl, rfl⟩
    | named hName =>
        exact ⟨_, .named _, [], rfl, ⟨hName, rfl⟩, rfl, rfl⟩
    | list hKind hText hOpening hElement hClosing =>
        exact ⟨_, .list, _, rfl, ⟨hKind, hText⟩,
          [_], (), _, rfl, ⟨_, rfl, hOpening⟩,
          _, _, [_], rfl, hElement,
          [_], _, [], rfl, ⟨_, rfl, hClosing, rfl⟩, rfl, rfl⟩
    | map hKind hText hOpening hKeyKind hKeyText hClosing
        hValue =>
        refine ⟨_, .map, _, rfl, ⟨hKind, hText⟩,
          [_, _, _], _, _, rfl,
          ⟨_, _, _, rfl, hOpening, hKeyKind, hKeyText, hClosing⟩,
          _, _, [], ?_, hValue, rfl, rfl⟩
        rw [List.append_nil]

theorem takes_typeExpr :
    Takes typeExpr IsType where
  inhabited :=
    ⟨[⟨.builtin, "string", .first⟩], _,
      @IsType.scalar _ .string rfl rfl⟩
  inner := by
    intro ts type h
    induction h with
    | scalar hKind _ => simp [hKind]
    | named hName => simp [hName.1]
    | list hKind _ hOpening _ hClosing ih =>
        simpa [hKind, hOpening, hClosing, or_imp, forall_and]
          using ih
    | map hKind _ hOpening hKeyKind _ hClosing _ ih =>
        simpa [hKind, hOpening, hKeyKind, hClosing] using ih
  complete := by
    intro ts type s h
    have hWord :
        ∀ {t : Token} (w : TypeWord) (us : List Token)
            (s' : TokenStream),
          IsTypeWord t w →
            typeExpr (s'.prepend (t :: us)) =
              typeRest w (s'.prepend us) := by
      intro t w us s' hw
      rw [typeExpr_eq]
      exact bind_of_ok
        ((recognizes_typeWord (n := 0)).complete
          [t] w (s'.prepend us) ⟨t, rfl, hw⟩)
    induction h generalizing s with
    | scalar hKind hText =>
        exact hWord (.scalar _) [] s ⟨hKind, hText⟩
    | named hName =>
        exact hWord (.named _) [] s ⟨hName, rfl⟩
    | @list _ opening closing us element hKind hText hOpening
        hElement hClosing ih =>
        have hOpened :=
          (recognizes_listOpening (n := 0)).complete
            [opening] () (s.prepend (us ++ [closing]))
            ⟨opening, rfl, hOpening⟩
        have hClosed :=
          (recognizes_mark (n := 0) .rightBracket).complete
            [closing] closing s ⟨closing, rfl, hClosing, rfl⟩
        rw [hWord .list _ s ⟨hKind, hText⟩]
        refine (bind_of_ok hOpened).trans ?_
        rw [TokenStream.prepend_append, bind_of_ok (ih _)]
        exact bind_of_ok hClosed
    | @map _ opening key closing kind us value hKind hText
        hOpening hKeyKind hKeyText hClosing hValue ih =>
        have hOpened :=
          (recognizes_mapOpening (n := 0)).complete
            [opening, key, closing] kind (s.prepend us)
            ⟨opening, key, closing, rfl, hOpening, hKeyKind,
              hKeyText, hClosing⟩
        rw [hWord .map _ s ⟨hKind, hText⟩]
        exact (bind_of_ok hOpened).trans (bind_of_ok (ih _))

/-
  A type is recognized. The induction is on the number of
  tokens: what is behind the first token is shorter.
-/
theorem recognizes_typeExpr
    (n : Nat) :
    Recognizes n typeExpr IsType := by
  induction n with
  | zero =>
      exact ⟨takes_typeExpr,
        fun s _ h => absurd h (Nat.not_lt_zero _)⟩
  | succ n ih =>
      have hRest :
          ∀ w, Recognizes n (typeRest w) (IsTypeRest w) := by
        intro w
        cases w with
        | scalar kind => exact recognizes_pure _
        | named reference => exact recognizes_pure _
        | list =>
            exact
              recognizes_bind recognizes_listOpening fun _ _ _ =>
              recognizes_bind (ih.mono (Nat.sub_le _ _))
                fun _ _ _ =>
              recognizes_bind (recognizes_mark _) fun _ _ _ =>
              recognizes_pure _
        | map =>
            exact
              recognizes_bind recognizes_mapOpening fun _ _ _ =>
              recognizes_bind (ih.mono (Nat.sub_le _ _))
                fun _ _ _ =>
              recognizes_pure _
      rw [typeExpr_eq]
      refine Recognizes.congr ?_
        fun ts type => followed_typeWord_iff
      refine recognizes_bind recognizes_typeWord fun us w h => ?_
      rcases h with ⟨t, rfl, _⟩
      exact hRest w

end Parser

end TagWire

------------------------------------------------------------
-- Fields
------------------------------------------------------------

namespace TagWire

namespace Parser

open Grammar

/- A field is recognized behind its first word, if any. -/
theorem recognizes_fieldBody
    {n : Nat}
    (start : Token)
    (optional : Bool) :
    Recognizes n
      (do
        let _ ← expect (.keyword .seq)
        let _ ← expect (.mark .assign)
        let seq ← seqNumber
        let type ← typeExpr
        let fieldName ← name .identifier
        let _ ← expect (.mark .semicolon)
        return ⟨fieldName, seq, optional, type, start.position⟩)
      (fun ts f =>
        ∃ g,
          IsRequiredField ts g ∧
            f =
              { g with
                optional := optional
                position := start.position }) := by
  refine Recognizes.congr
    (recognizes_bind (recognizes_keyword _) fun _ _ _ =>
      recognizes_bind (recognizes_mark _) fun _ _ _ =>
      recognizes_bind recognizes_seqNumber fun _ _ _ =>
      recognizes_bind (recognizes_typeExpr _) fun _ _ _ =>
      recognizes_bind (recognizes_name _ fun _ => rfl)
        fun _ _ _ =>
      recognizes_bind (recognizes_mark _) fun _ _ _ =>
      recognizes_pure _)
    fun ts f => ?_
  simp only [followed_single_eq_iff]
  constructor
  · rintro ⟨word, _, rfl, hWord, sign, _, rfl, hSign,
      _, seq, _, rfl, ⟨number, rfl, hKind, hNumber⟩,
      us, type, _, rfl, hType,
      _, _, _, rfl, ⟨fieldName, rfl, hName, rfl⟩,
      _, _, _, rfl, ⟨closing, rfl, hClosing, rfl⟩, rfl, rfl⟩
    exact ⟨_, .intro hWord hSign hKind hNumber hType hName
      hClosing, rfl⟩
  · rintro ⟨_, ⟨hWord, hSign, hKind, hNumber, hType, hName,
      hClosing⟩, rfl⟩
    exact ⟨_, _, rfl, hWord, _, _, rfl, hSign,
      [_], _, _, rfl, ⟨_, rfl, hKind, hNumber⟩,
      _, _, [_, _], rfl, hType,
      [_], _, [_], rfl, ⟨_, rfl, hName, rfl⟩,
      [_], _, [], rfl, ⟨_, rfl, hClosing, rfl⟩, rfl, rfl⟩

/- A field that has to be set starts with its keyword. -/
theorem exists_of_isRequiredField
    {ts : List Token}
    {f : Field String}
    (h : IsRequiredField ts f) :
    ∃ t us,
      ts = t :: us ∧ t.kind = .keyword .seq ∧
        f = { f with
                optional := false
                position := t.position } := by
  cases h with
  | intro hWord => exact ⟨_, _, rfl, hWord, rfl⟩

theorem recognizes_field
    {n : Nat} :
    Recognizes n field IsField := by
  refine Recognizes.congr
    (recognizes_peek
      (fun start =>
        recognizes_accept (by simp)
          (recognizes_fieldBody start true)
          (recognizes_fieldBody start false) ?_)
      ?_ ?_)
    fun ts f => ?_
  · rintro ts f ⟨g, hField, _⟩
    rcases exists_of_isRequiredField hField with
      ⟨t, us, rfl, hKind, _⟩
    exact ⟨t, us, rfl, by simp [hKind]⟩
  · rintro t f (⟨_, _, hSplit, _⟩ | ⟨g, hField, _⟩)
    · cases hSplit
    · rcases exists_of_isRequiredField hField with
        ⟨_, _, hSplit, _⟩
      cases hSplit
  · rintro t t' ts f
      (⟨u, us, rfl, hKind, g, hField, _⟩ | ⟨g, hField, _⟩)
    · exact ⟨_, .inl ⟨u, us, rfl, hKind, g, hField, rfl⟩⟩
    · exact ⟨_, .inr ⟨g, hField, rfl⟩⟩
  · constructor
    · rintro ⟨t, us, rfl,
        ⟨_, _, hSplit, hKind, g, hField, rfl⟩ |
        ⟨g, hField, rfl⟩⟩
      · cases hSplit
        exact .optional hKind hField
      · rcases exists_of_isRequiredField hField with
          ⟨u, _, hSplit, _, hSame⟩
        cases hSplit
        rw [← hSame]
        exact .required hField
    · intro h
      cases h with
      | required hField =>
          rcases exists_of_isRequiredField hField with
            ⟨u, us, rfl, _, hSame⟩
          exact ⟨u, us, rfl, .inr ⟨f, hField, hSame⟩⟩
      | @optional word us g hWord hField =>
          exact ⟨word, us, rfl,
            .inl ⟨word, us, rfl, hWord, g, hField, rfl⟩⟩

/- No field starts with the brace that ends its message. -/
theorem avoids_isField :
    Avoids IsField (.mark .rightBrace) := by
  rintro ts f (hField | ⟨hWord, hField⟩)
  · rcases exists_of_isRequiredField hField with
      ⟨t, us, rfl, hKind, _⟩
    exact ⟨t, us, rfl, by simp [hKind]⟩
  · exact ⟨_, _, rfl, by simp [hWord]⟩

end Parser

end TagWire

------------------------------------------------------------
-- Methods
------------------------------------------------------------

namespace TagWire

namespace Parser

open Grammar

variable {n : Nat}

/- A reply in parentheses is recognized behind its keyword. -/
theorem recognizes_replyBody :
    Recognizes n
      (do
        let _ ← expect (.mark .leftParen)
        let responseName ← name .responseType
        let _ ← expect (.mark .rightParen)
        return some responseName)
      (fun ts reply =>
        ∀ word : Token,
          word.kind = .keyword .return →
            IsReply (word :: ts) reply) := by
  refine Recognizes.congr
    (recognizes_bind (recognizes_mark _) fun _ _ _ =>
      recognizes_bind (recognizes_name _ fun _ => rfl)
        fun _ _ _ =>
      recognizes_bind (recognizes_mark _) fun _ _ _ =>
      recognizes_pure _)
    fun ts reply => ?_
  simp only [followed_single_eq_iff]
  constructor
  · rintro ⟨opening, _, rfl, hOpening, name, _, rfl, hName,
      closing, _, rfl, hClosing, rfl, rfl⟩ word hWord
    exact .some hWord hOpening hName hClosing
  · intro h
    rcases h ⟨.keyword .return, "", .first⟩ rfl with
      _ | ⟨_, hOpening, hName, hClosing⟩
    exact ⟨_, _, rfl, hOpening, _, _, rfl, hName,
      _, _, rfl, hClosing, rfl, rfl⟩

/-
  A reply is recognized together with the mark that ends its
  method, which tells where there is none.
-/
theorem recognizes_replyEnding
    {α : Type}
    (build : Option String → α) :
    Recognizes n
      (do
        let reply ← response
        let _ ← expect (.mark .semicolon)
        return build reply)
      (fun ts a =>
        ∃ us reply t,
          ts = us ++ [t] ∧ IsReply us reply ∧
            t.kind = .mark .semicolon ∧ a = build reply) := by
  have hEnding :
      ∀ {m : Nat} (reply : Option String),
        Recognizes m
          (expect (.mark .semicolon) >>= fun _ =>
            pure (build reply))
          (fun ts a =>
            ∃ t,
              ts = [t] ∧ t.kind = .mark .semicolon ∧
                a = build reply) := by
    intro m reply
    refine Recognizes.congr
      (recognizes_bind (recognizes_mark _) fun _ _ _ =>
        recognizes_pure _)
      fun ts a => ?_
    rw [followed_single_eq_iff]
    constructor
    · rintro ⟨t, _, rfl, hKind, rfl, rfl⟩
      exact ⟨t, rfl, hKind, rfl⟩
    · rintro ⟨t, rfl, hKind, rfl⟩
      exact ⟨t, [], rfl, hKind, rfl, rfl⟩
  unfold response
  rw [bind_assoc]
  refine Recognizes.congr
    (recognizes_accept (by simp)
      (recognizes_bind recognizes_replyBody fun _ _ _ =>
        hEnding _)
      (recognizes_bind (recognizes_pure _) fun _ _ _ =>
        hEnding _)
      ?_)
    fun ts a => ?_
  · rintro ts a ⟨_, _, _, rfl, ⟨rfl, rfl⟩, t, rfl, hKind, _⟩
    exact ⟨t, [], rfl, by simp [hKind]⟩
  · constructor
    · rintro
        (⟨word, _, rfl, hWord,
          us, reply, _, rfl, hReply, t, rfl, hKind, rfl⟩ |
        ⟨_, _, _, rfl, ⟨rfl, rfl⟩, t, rfl, hKind, rfl⟩)
      · exact ⟨word :: us, reply, t, rfl, hReply word hWord,
          hKind, rfl⟩
      · exact ⟨[], none, t, rfl, .none, hKind, rfl⟩
    · rintro ⟨us, reply, t, rfl, hReply, hKind, rfl⟩
      cases hReply with
      | none =>
          exact .inr ⟨[], none, [t], rfl, ⟨rfl, rfl⟩,
            t, rfl, hKind, rfl⟩
      | @some word opening name closing hWord hOpening hName
          hClosing =>
          refine .inl ⟨word, _, rfl, hWord,
            [opening, name, closing], some name.text, [t], rfl,
            ?_, t, rfl, hKind, rfl⟩
          exact fun _ hWord' =>
            .some hWord' hOpening hName hClosing

theorem recognizes_method :
    Recognizes n method IsMethod := by
  refine Recognizes.congr
    (recognizes_peek
      (fun start =>
        recognizes_bind (recognizes_name _ fun _ => rfl)
          fun _ _ _ =>
        recognizes_bind (recognizes_mark _) fun _ _ _ =>
        recognizes_bind (recognizes_name _ fun _ => rfl)
          fun _ _ _ =>
        recognizes_bind (recognizes_mark _) fun _ _ _ =>
        recognizes_replyEnding _)
      ?_ ?_)
    fun ts m => ?_
  all_goals simp only [followed_single_eq_iff]
  · rintro t m ⟨_, _, hSplit, _⟩
    cases hSplit
  · rintro t t' ts m ⟨name, _, rfl, hName,
      opening, _, rfl, hOpening, request, _, rfl, hRequest,
      closing, _, rfl, hClosing,
      us, reply, ending, rfl, hReply, hEnding, rfl⟩
    exact ⟨_, name, _, rfl, hName, opening, _, rfl, hOpening,
      request, _, rfl, hRequest, closing, _, rfl, hClosing,
      us, reply, ending, rfl, hReply, hEnding, rfl⟩
  · constructor
    · rintro ⟨t, _, rfl, name, _, hSplit, hName,
        opening, _, rfl, hOpening, request, _, rfl, hRequest,
        closing, _, rfl, hClosing,
        us, reply, ending, rfl, hReply, hEnding, rfl⟩
      cases hSplit
      exact .intro hName hOpening hRequest hClosing hReply
        hEnding
    · rintro ⟨hName, hOpening, hRequest, hClosing, hReply,
        hEnding⟩
      exact ⟨_, _, rfl, _, _, rfl, hName,
        _, _, rfl, hOpening, _, _, rfl, hRequest,
        _, _, rfl, hClosing, _, _, _, rfl, hReply, hEnding, rfl⟩

/- No method starts with the brace that ends its service. -/
theorem avoids_isMethod :
    Avoids IsMethod (.mark .rightBrace) := by
  rintro ts m ⟨hName⟩
  exact ⟨_, _, rfl, by simp [hName.1]⟩

end Parser

end TagWire
