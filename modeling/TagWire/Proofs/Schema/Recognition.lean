import TagWire.Proofs.Schema.Grammar

/-
  Parsers that follow a grammar: they take the words of a
  language whatever is behind them, take nothing else, and
  reject a token as soon as no word goes on with it.

  Main declarations:
    * `TokenStream.prepend`
    * `TokenStream.HasEnd`
    * `Parser.RejectsAt`
    * `Parser.Takes`
    * `Parser.FollowsAt`
    * `Parser.Recognizes`
    * `Parser.recognizes_bind`
    * `Parser.recognizes_accept`
    * `Parser.recognizes_manyUntil`
-/

------------------------------------------------------------
-- Streams with an End
------------------------------------------------------------

namespace TagWire

namespace TokenStream

/- The stream with some tokens put in front. -/
def prepend
    (ts : List Token)
    (s : TokenStream) :
    TokenStream :=
  { s with ahead := ts ++ s.ahead }

/- The end of a text is ahead. -/
def HasEnd
    (s : TokenStream) : Prop :=
  ∃ t ∈ s.ahead, t.kind = .endOfText

@[simp] theorem prepend_nil
    (s : TokenStream) :
    s.prepend [] = s := rfl

theorem prepend_append
    (ts us : List Token)
    (s : TokenStream) :
    s.prepend (ts ++ us) = (s.prepend us).prepend ts := by
  simp [prepend]

theorem prepend_cons
    (t : Token)
    (ts : List Token)
    (s : TokenStream) :
    s.prepend (t :: ts) = (s.prepend ts).prepend [t] :=
  rfl

@[simp] theorem current_prepend_cons
    (t : Token)
    (ts : List Token)
    (s : TokenStream) :
    (s.prepend (t :: ts)).current = t := rfl

@[simp] theorem advance_prepend_cons
    (t : Token)
    (ts : List Token)
    (s : TokenStream) :
    (s.prepend (t :: ts)).advance = s.prepend ts := rfl

@[simp] theorem length_prepend
    (ts : List Token)
    (s : TokenStream) :
    (s.prepend ts).length = ts.length + s.length := by
  simp [prepend, length]

/- The next token does not depend on what is behind it. -/
theorem current_prepend_concat
    (ts : List Token)
    (t : Token)
    (s s' : TokenStream) :
    (s.prepend (ts ++ [t])).current =
      (s'.prepend (ts ++ [t])).current := by
  cases ts <;> rfl

/- Before the end of the text, the next token is ahead. -/
theorem HasEnd.eq_prepend
    {s : TokenStream}
    (h : s.HasEnd) :
    s = s.advance.prepend [s.current] := by
  rcases s with ⟨ahead, last⟩
  rcases h with ⟨t, ht, _⟩
  cases ahead with
  | nil => cases ht
  | cons u rest => rfl

/- Taking tokens that are no end leaves the end ahead. -/
theorem HasEnd.of_prepend
    {ts : List Token}
    {s : TokenStream}
    (h : (s.prepend ts).HasEnd)
    (hInner : ∀ t ∈ ts, t.kind ≠ .endOfText) :
    s.HasEnd := by
  rcases h with ⟨t, ht, hEnd⟩
  rcases List.mem_append.mp ht with ht | ht
  · exact absurd hEnd (hInner t ht)
  · exact ⟨t, ht, hEnd⟩

theorem HasEnd.advance
    {s : TokenStream}
    (h : s.HasEnd)
    (hCurrent : s.current.kind ≠ .endOfText) :
    s.advance.HasEnd := by
  apply HasEnd.of_prepend (h.eq_prepend ▸ h)
  intro t ht
  rwa [List.mem_singleton.mp ht]

end TokenStream

end TagWire

------------------------------------------------------------
-- Recognition
------------------------------------------------------------

namespace TagWire

namespace Parser

variable {α β : Type}

/-
  A parser rejects the token that an error names: some word
  starts with the tokens before it, and the parser fails the
  same way whatever follows it.
-/
def RejectsAt
    (p : Parser α)
    (L : List Token → α → Prop)
    (s : TokenStream)
    (e : ParseError) : Prop :=
  ∃ (ts : List Token) (rest : TokenStream),
    s = rest.prepend (ts ++ [e.found]) ∧
      (∃ us a, L (ts ++ us) a) ∧
      ∀ s' : TokenStream,
        p (s'.prepend (ts ++ [e.found])) = .error e

/-
  A parser takes the words of a language, which give values,
  whatever is behind them. No word reaches the end of a text.
-/
structure Takes
    (p : Parser α)
    (L : List Token → α → Prop) : Prop where
  inhabited : ∃ ts a, L ts a
  inner : ∀ ts a, L ts a → ∀ t ∈ ts, t.kind ≠ .endOfText
  complete :
    ∀ ts a (s : TokenStream),
      L ts a → p (s.prepend ts) = .ok (a, s)

/-
  On some stream a parser takes a word of a language, or it
  rejects the first token that fits no word.
-/
structure FollowsAt
    (p : Parser α)
    (L : List Token → α → Prop)
    (s : TokenStream) : Prop where
  sound :
    ∀ a s', p s = .ok (a, s') →
      ∃ ts, L ts a ∧ s = s'.prepend ts
  prompt : ∀ e, p s = .error e → RejectsAt p L s e

/-
  A parser takes the words of a language and nothing else, on
  streams of less than some number of tokens. That number is
  what a recursive parser is treated by induction on.
-/
structure Recognizes
    (n : Nat)
    (p : Parser α)
    (L : List Token → α → Prop) : Prop
    extends Takes p L where
  follows :
    ∀ s : TokenStream,
      s.HasEnd → s.length < n → FollowsAt p L s

/- What is known of longer streams is known of shorter ones. -/
theorem Recognizes.mono
    {m n : Nat}
    {p : Parser α}
    {L : List Token → α → Prop}
    (h : Recognizes n p L)
    (hLe : m ≤ n) :
    Recognizes m p L where
  toTakes := h.toTakes
  follows := fun s hEnd hLt =>
    h.follows s hEnd (Nat.lt_of_lt_of_le hLt hLe)

/- A language may be described in another way. -/
theorem Recognizes.congr
    {n : Nat}
    {p : Parser α}
    {L L' : List Token → α → Prop}
    (h : Recognizes n p L)
    (hIff : ∀ ts a, L ts a ↔ L' ts a) :
    Recognizes n p L' := by
  have hSame : L = L' := by
    funext ts a
    exact propext (hIff ts a)
  exact hSame ▸ h

/-
  What follows a language at some stream follows a larger one
  that goes on in the same way.
-/
theorem FollowsAt.mono
    {p q : Parser α}
    {L L' : List Token → α → Prop}
    {s : TokenStream}
    (h : FollowsAt p L s)
    (hWords : ∀ ts a, L ts a → L' ts a)
    (hSame :
      ∀ s' : TokenStream,
        s'.current = s.current → q s' = p s') :
    FollowsAt q L' s where
  sound := by
    intro a s' hRun
    rw [hSame s rfl] at hRun
    rcases h.sound a s' hRun with ⟨ts, hWord, hSplit⟩
    exact ⟨ts, hWords ts a hWord, hSplit⟩
  prompt := by
    intro e hRun
    rw [hSame s rfl] at hRun
    rcases h.prompt e hRun with
      ⟨ts, rest, hSplit, ⟨us, a, hWord⟩, hFails⟩
    refine ⟨ts, rest, hSplit, ⟨us, a, hWords _ a hWord⟩, ?_⟩
    intro s'
    rw [hSame]
    · exact hFails s'
    · rw [hSplit]
      exact TokenStream.current_prepend_concat ts _ s' rest

------------------------------------------------------------
-- Sequences
------------------------------------------------------------

theorem pure_apply
    (a : α)
    (s : TokenStream) :
    (pure a : Parser α) s = .ok (a, s) := rfl

theorem bind_apply
    (p : Parser α)
    (f : α → Parser β)
    (s : TokenStream) :
    (p >>= f) s = (p s).bind (fun r => f r.1 r.2) := rfl

theorem bind_of_ok
    {p : Parser α}
    {f : α → Parser β}
    {s s' : TokenStream}
    {a : α}
    (h : p s = .ok (a, s')) :
    (p >>= f) s = f a s' := by
  rw [bind_apply, h]
  rfl

theorem bind_of_error
    {p : Parser α}
    {f : α → Parser β}
    {s : TokenStream}
    {e : ParseError}
    (h : p s = .error e) :
    (p >>= f) s = .error e := by
  rw [bind_apply, h]
  rfl

/- A sequence fails in its first part or behind it. -/
theorem error_of_bind_eq_error
    {p : Parser α}
    {f : α → Parser β}
    {s : TokenStream}
    {e : ParseError}
    (h : (p >>= f) s = .error e) :
    p s = .error e ∨
      ∃ a s', p s = .ok (a, s') ∧ f a s' = .error e := by
  cases hp : p s with
  | error e' =>
      rw [bind_of_error hp] at h
      cases h
      exact .inl rfl
  | ok r =>
      rw [bind_of_ok hp] at h
      exact .inr ⟨r.1, r.2, rfl, h⟩

theorem recognizes_pure
    {n : Nat}
    (a : α) :
    Recognizes n (pure a : Parser α)
      (fun ts b => ts = [] ∧ b = a) where
  inhabited := ⟨[], a, rfl, rfl⟩
  inner := by
    rintro ts b ⟨rfl, rfl⟩ t ht
    cases ht
  complete := by
    rintro ts b s ⟨rfl, rfl⟩
    rfl
  follows := by
    intro s _ _
    constructor
    · intro b s' h
      cases h
      exact ⟨[], ⟨rfl, rfl⟩, rfl⟩
    · intro e h
      cases h

/-
  The words of one language, each followed by a word of a
  second language that the value of the first selects.
-/
def Followed
    (L : List Token → α → Prop)
    (M : α → List Token → β → Prop)
    (ts : List Token)
    (b : β) : Prop :=
  ∃ us a vs, ts = us ++ vs ∧ L us a ∧ M a vs b

section Sequence

variable {p : Parser α}
variable {f : α → Parser β}
variable {L : List Token → α → Prop}
variable {M : α → List Token → β → Prop}

theorem takes_bind
    (hp : Takes p L)
    (hf : ∀ us a, L us a → Takes (f a) (M a)) :
    Takes (p >>= f) (Followed L M) where
  inhabited := by
    rcases hp.inhabited with ⟨us, a, hFirst⟩
    rcases (hf us a hFirst).inhabited with ⟨vs, b, hSecond⟩
    exact ⟨us ++ vs, b, us, a, vs, rfl, hFirst, hSecond⟩
  inner := by
    rintro ts b ⟨us, a, vs, rfl, hFirst, hSecond⟩ t ht
    rcases List.mem_append.mp ht with ht | ht
    · exact hp.inner us a hFirst t ht
    · exact (hf us a hFirst).inner vs b hSecond t ht
  complete := by
    rintro ts b s ⟨us, a, vs, rfl, hFirst, hSecond⟩
    rw [TokenStream.prepend_append,
      bind_of_ok (hp.complete us a _ hFirst)]
    exact (hf us a hFirst).complete vs b s hSecond

/-
  A sequence recognizes words of both parts in a row. Behind
  a word of the first part the stream is as much shorter.
-/
theorem recognizes_bind
    {n : Nat}
    (hp : Recognizes n p L)
    (hf :
      ∀ us a, L us a → Recognizes (n - us.length) (f a) (M a)) :
    Recognizes n (p >>= f) (Followed L M) where
  toTakes :=
    takes_bind hp.toTakes (fun us a h => (hf us a h).toTakes)
  follows := by
    intro s hEnd hLt
    have hFirst := hp.follows s hEnd hLt
    have hSecond :
        ∀ us a (s₁ : TokenStream),
          L us a → s = s₁.prepend us →
            FollowsAt (f a) (M a) s₁ := by
      rintro us a s₁ hWord rfl
      apply (hf us a hWord).follows
      · exact hEnd.of_prepend (hp.inner us a hWord)
      · rw [TokenStream.length_prepend] at hLt
        exact Nat.lt_sub_iff_add_lt'.mpr hLt
    constructor
    · intro b s' h
      rcases exists_of_bind_eq_ok h with ⟨a, s₁, hp', hf'⟩
      rcases hFirst.sound a s₁ hp' with ⟨us, hWord, rfl⟩
      rcases (hSecond us a s₁ hWord rfl).sound b s' hf' with
        ⟨vs, hWord', rfl⟩
      exact ⟨us ++ vs, ⟨us, a, vs, rfl, hWord, hWord'⟩,
        (TokenStream.prepend_append us vs s').symm⟩
    · intro e h
      rcases error_of_bind_eq_error h with
        hp' | ⟨a, s₁, hp', hf'⟩
      · -- Any word of the second part completes the first one.
        rcases hFirst.prompt e hp' with
          ⟨ts, rest, hSplit, ⟨us, a, hWord⟩, hFails⟩
        rcases (hf _ a hWord).inhabited with ⟨vs, b, hWord'⟩
        refine ⟨ts, rest, hSplit, ⟨us ++ vs, b, ?_⟩, ?_⟩
        · exact ⟨ts ++ us, a, vs, by rw [List.append_assoc],
            hWord, hWord'⟩
        · exact fun s' => bind_of_error (hFails s')
      · -- The whole word of the first part is taken again,
        -- whatever follows the rejected token.
        rcases hFirst.sound a s₁ hp' with ⟨us, hWord, rfl⟩
        rcases (hSecond us a s₁ hWord rfl).prompt e hf' with
          ⟨ts, rest, rfl, ⟨vs, b, hWord'⟩, hFails⟩
        refine ⟨us ++ ts, rest, ?_, ⟨vs, b, ?_⟩, ?_⟩
        · rw [List.append_assoc, TokenStream.prepend_append us]
        · exact ⟨us, a, ts ++ vs, by rw [List.append_assoc],
            hWord, hWord'⟩
        · intro s'
          rw [List.append_assoc, TokenStream.prepend_append us,
            bind_of_ok (hp.complete us a _ hWord)]
          exact hFails s'

end Sequence

------------------------------------------------------------
-- Single Tokens
------------------------------------------------------------

/- No expectation is met by the end of a text. -/
theorem ne_endOfText_of_admits
    {e : Expectation}
    {t : Token}
    (h : e.admits t = true) :
    t.kind ≠ .endOfText := by
  intro hEnd
  cases e <;> simp [Expectation.admits, hEnd] at h

theorem bind_expect
    {e : Expectation}
    {f : Token → Parser α}
    (s : TokenStream) :
    (expect e >>= f) s =
      if e.admits s.current then
        f s.current s.advance
      else
        .error ⟨.expected e, s.current⟩ := by
  split
  · next h => exact bind_of_ok (by simp [expect, h])
  · next h => exact bind_of_error (by simp [expect, h])

/- The words of one token that reads as something. -/
def Single
    (R : Token → α → Prop)
    (ts : List Token)
    (a : α) : Prop :=
  ∃ t, ts = [t] ∧ R t a

theorem followed_single_iff
    {R : Token → α → Prop}
    {M : α → List Token → β → Prop}
    {ts : List Token}
    {b : β} :
    Followed (Single R) M ts b ↔
      ∃ t a us, ts = t :: us ∧ R t a ∧ M a us b := by
  constructor
  · rintro ⟨_, a, us, rfl, ⟨t, rfl, h⟩, hRest⟩
    exact ⟨t, a, us, rfl, h, hRest⟩
  · rintro ⟨t, a, us, rfl, h, hRest⟩
    exact ⟨[t], a, us, rfl, ⟨t, rfl, h⟩, hRest⟩

theorem followed_single_eq_iff
    {P : Token → Prop}
    {value : Token → α}
    {M : α → List Token → β → Prop}
    {ts : List Token}
    {b : β} :
    Followed (Single fun t a => P t ∧ a = value t) M ts b ↔
      ∃ t us, ts = t :: us ∧ P t ∧ M (value t) us b := by
  rw [followed_single_iff]
  constructor
  · rintro ⟨t, _, us, rfl, ⟨h, rfl⟩, hRest⟩
    exact ⟨t, us, rfl, h, hRest⟩
  · rintro ⟨t, us, rfl, h, hRest⟩
    exact ⟨t, value t, us, rfl, ⟨h, rfl⟩, hRest⟩

/-
  A parser that takes one token, if it reads as something,
  recognizes the tokens that do.
-/
theorem recognizes_token
    {n : Nat}
    {p : Parser α}
    {R : Token → α → Prop}
    (read : Token → Except ParseFault α)
    (hp :
      ∀ s : TokenStream,
        p s =
          match read s.current with
          | .ok a => .ok (a, s.advance)
          | .error fault => .error ⟨fault, s.current⟩)
    (hRead : ∀ t a, read t = .ok a ↔ R t a)
    (hInner : ∀ t a, R t a → t.kind ≠ .endOfText)
    (hInhabited : ∃ t a, R t a) :
    Recognizes n p (Single R) where
  inhabited := by
    rcases hInhabited with ⟨t, a, h⟩
    exact ⟨[t], a, t, rfl, h⟩
  inner := by
    rintro ts a ⟨t, rfl, h⟩ u hu
    obtain rfl := List.mem_singleton.mp hu
    exact hInner u a h
  complete := by
    rintro ts a s ⟨t, rfl, h⟩
    rw [hp, TokenStream.current_prepend_cons,
      (hRead t a).mpr h]
    rfl
  follows := by
    intro s hEnd _
    constructor
    · intro a s' h
      rw [hp] at h
      cases hCurrent : read s.current with
      | error fault =>
          rw [hCurrent] at h
          cases h
      | ok b =>
          rw [hCurrent] at h
          cases h
          exact ⟨[s.current],
            ⟨s.current, rfl, (hRead _ _).mp hCurrent⟩,
            hEnd.eq_prepend⟩
    · intro e h
      rw [hp] at h
      cases hCurrent : read s.current with
      | ok a =>
          rw [hCurrent] at h
          cases h
      | error fault =>
          rw [hCurrent] at h
          cases h
          rcases hInhabited with ⟨t, a, hValue⟩
          refine ⟨[], s.advance, hEnd.eq_prepend,
            ⟨[t], a, t, rfl, hValue⟩, ?_⟩
          intro s'
          rw [hp]
          simp [hCurrent]

------------------------------------------------------------
-- Looking Ahead
------------------------------------------------------------

/- All words start with a token that is not of some kind. -/
def Avoids
    (L : List Token → α → Prop)
    (kind : TokenKind) : Prop :=
  ∀ ts a, L ts a → ∃ t us, ts = t :: us ∧ t.kind ≠ kind

/-
  The words of two languages, those of the first behind a
  token of some kind.
-/
def Marked
    (kind : TokenKind)
    (L L' : List Token → α → Prop)
    (ts : List Token)
    (a : α) : Prop :=
  (∃ t us, ts = t :: us ∧ t.kind = kind ∧ L us a) ∨ L' ts a

theorem bind_accept
    {kind : TokenKind}
    {f : Bool → Parser α}
    (s : TokenStream) :
    (accept kind >>= f) s =
      if s.current.kind = kind then
        f true s.advance
      else
        f false s := by
  split
  · next h => exact bind_of_ok (by simp [accept, h])
  · next h => exact bind_of_ok (by simp [accept, h])

section Accept

variable {kind : TokenKind}
variable {f : Bool → Parser α}
variable {L L' : List Token → α → Prop}

theorem takes_accept
    (hKind : kind ≠ .endOfText)
    (hTrue : Takes (f true) L)
    (hFalse : Takes (f false) L')
    (hAvoids : Avoids L' kind) :
    Takes (accept kind >>= f) (Marked kind L L') where
  inhabited := by
    rcases hFalse.inhabited with ⟨ts, b, h⟩
    exact ⟨ts, b, .inr h⟩
  inner := by
    rintro ts b (⟨t, us, rfl, hTaken, h⟩ | h) u hu
    · rcases List.mem_cons.mp hu with rfl | hu
      · exact hTaken ▸ hKind
      · exact hTrue.inner us b h u hu
    · exact hFalse.inner ts b h u hu
  complete := by
    rintro ts b s (⟨t, us, rfl, hTaken, h⟩ | h)
    · rw [bind_accept, TokenStream.current_prepend_cons,
        if_pos hTaken, TokenStream.advance_prepend_cons]
      exact hTrue.complete us b s h
    · rcases hAvoids ts b h with ⟨t, us, rfl, hOther⟩
      rw [bind_accept, TokenStream.current_prepend_cons,
        if_neg hOther]
      exact hFalse.complete _ b s h

/-
  A sequence that may start with a token of some kind
  recognizes words with it and words without it, if it can
  tell them apart.
-/
theorem recognizes_accept
    {n : Nat}
    (hKind : kind ≠ .endOfText)
    (hTrue : Recognizes n (f true) L)
    (hFalse : Recognizes n (f false) L')
    (hAvoids : Avoids L' kind) :
    Recognizes n (accept kind >>= f) (Marked kind L L') where
  toTakes :=
    takes_accept hKind hTrue.toTakes hFalse.toTakes hAvoids
  follows := by
    intro s hEnd hLt
    by_cases hTaken : s.current.kind = kind
    · have hSplit := hEnd.eq_prepend
      have hInner : FollowsAt (f true) L s.advance := by
        apply hTrue.follows
        · exact hEnd.advance (hTaken ▸ hKind)
        · exact Nat.lt_of_le_of_lt s.length_advance_le hLt
      constructor
      · intro b s' h
        rw [bind_accept, if_pos hTaken] at h
        rcases hInner.sound b s' h with ⟨us, hWord, hRest⟩
        refine ⟨s.current :: us,
          .inl ⟨s.current, us, rfl, hTaken, hWord⟩, ?_⟩
        rw [TokenStream.prepend_cons, ← hRest]
        exact hSplit
      · intro e h
        rw [bind_accept, if_pos hTaken] at h
        rcases hInner.prompt e h with
          ⟨ts, rest, hRest, ⟨us, b, hWord⟩, hFails⟩
        refine ⟨s.current :: ts, rest, ?_, ⟨us, b, ?_⟩, ?_⟩
        · rw [List.cons_append, TokenStream.prepend_cons,
            ← hRest]
          exact hSplit
        · exact .inl ⟨s.current, ts ++ us, rfl, hTaken, hWord⟩
        · intro s'
          rw [List.cons_append, bind_accept,
            TokenStream.current_prepend_cons, if_pos hTaken]
          exact hFails s'
    · apply (hFalse.follows s hEnd hLt).mono
      · exact fun ts b h => .inr h
      · intro s' hSame
        rw [bind_accept, hSame, if_neg hTaken]

end Accept

theorem bind_peek
    {f : Token → Parser β}
    (s : TokenStream) :
    (peek >>= f) s = f s.current s :=
  bind_of_ok rfl

/-
  A sequence that starts with a look at the next token: it
  recognizes the words of what follows, with values for their
  first token. Which words they are must not depend on it.
-/
theorem recognizes_peek
    {n : Nat}
    {f : Token → Parser β}
    {M : Token → List Token → β → Prop}
    (hf : ∀ t, Recognizes n (f t) (M t))
    (hNonempty : ∀ t b, ¬ M t [] b)
    (hSame : ∀ t t' ts b, M t ts b → ∃ b', M t' ts b') :
    Recognizes n (peek >>= f)
      (fun ts b => ∃ t us, ts = t :: us ∧ M t ts b) := by
  have hWord :
      ∀ t ts b, M t ts b →
        ∃ u us b', ts = u :: us ∧ M u ts b' := by
    intro t ts b h
    cases ts with
    | nil => exact absurd h (hNonempty t b)
    | cons u us =>
        rcases hSame t u _ b h with ⟨b', h'⟩
        exact ⟨u, us, b', rfl, h'⟩
  constructor
  · constructor
    · rcases (hf (endToken .first)).inhabited with ⟨ts, b, h⟩
      rcases hWord _ ts b h with ⟨u, us, b', hSplit, h'⟩
      exact ⟨ts, b', u, us, hSplit, h'⟩
    · rintro ts b ⟨t, us, rfl, h⟩
      exact (hf t).inner _ b h
    · rintro ts b s ⟨t, us, rfl, h⟩
      rw [bind_peek]
      exact (hf t).complete _ b s h
  · intro s hEnd hLt
    constructor
    · intro b s' h
      rw [bind_peek] at h
      rcases ((hf _).follows s hEnd hLt).sound b s' h with
        ⟨ts, hTaken, rfl⟩
      cases ts with
      | nil => exact absurd hTaken (hNonempty _ b)
      | cons t us => exact ⟨t :: us, ⟨t, us, rfl, hTaken⟩, rfl⟩
    · intro e h
      rw [bind_peek] at h
      rcases ((hf _).follows s hEnd hLt).prompt e h with
        ⟨ts, rest, rfl, ⟨us, b, hTaken⟩, hFails⟩
      -- The word that goes on need not start with the token
      -- that is rejected, so it has a value of its own.
      rcases hWord _ _ b hTaken with ⟨t, vs, b', hSplit, h'⟩
      refine ⟨ts, rest, rfl, ⟨us, b', t, vs, hSplit, h'⟩, ?_⟩
      intro s'
      rw [bind_peek,
        TokenStream.current_prepend_concat ts _ s' rest]
      exact hFails s'

------------------------------------------------------------
-- Repetition
------------------------------------------------------------

section Repetition

variable {n : Nat}
variable {p : Parser α}
variable {hp : Progresses p}
variable {close : TokenKind}
variable {L : List Token → α → Prop}

theorem manyUntil_of_close
    {s : TokenStream}
    (h : s.current.kind = close) :
    manyUntil p hp close s = .ok ([], s.advance) := by
  rw [manyUntil, if_pos h]

theorem manyUntil_of_error
    {s : TokenStream}
    {e : ParseError}
    (hOpen : s.current.kind ≠ close)
    (h : p s = .error e) :
    manyUntil p hp close s = .error e := by
  rw [manyUntil, if_neg hOpen]
  split
  · next e' he =>
      rw [h] at he
      cases he
      rfl
  · next a s' hOk =>
      rw [h] at hOk
      cases hOk

theorem manyUntil_of_ok
    {s s' : TokenStream}
    {a : α}
    (hOpen : s.current.kind ≠ close)
    (h : p s = .ok (a, s')) :
    manyUntil p hp close s =
      (manyUntil p hp close s').map
        (fun r => (a :: r.1, r.2)) := by
  rw [manyUntil, if_neg hOpen]
  split
  · next e he =>
      rw [h] at he
      cases he
  · next b s₁ hOk =>
      rw [h] at hOk
      cases hOk
      cases manyUntil p hp close s' <;> rfl

/-
  Repetition takes some words and goes on behind them, on
  success and on failure.
-/
theorem manyUntil_prepend
    (hWords : Takes p L)
    (hAvoids : Avoids L close)
    {ts : List Token}
    {as : List α}
    (h : Grammar.IsRepeated L ts as)
    (s : TokenStream) :
    manyUntil p hp close (s.prepend ts) =
      (manyUntil p hp close s).map
        (fun r => (as ++ r.1, r.2)) := by
  induction h with
  | nil =>
      rw [TokenStream.prepend_nil]
      cases manyUntil p hp close s <;> rfl
  | @cons ts us a as hHead hRest ih =>
      have hOpen :
          (s.prepend (ts ++ us)).current.kind ≠ close := by
        rcases hAvoids ts a hHead with ⟨t, ts', rfl, hOther⟩
        exact hOther
      have hTaken := hWords.complete ts a (s.prepend us) hHead
      rw [← TokenStream.prepend_append] at hTaken
      rw [manyUntil_of_ok hOpen hTaken, ih]
      cases manyUntil p hp close s <;> rfl

/- Repetition takes nothing but words, and a closing token. -/
theorem manyUntil_sound
    (hWords : Recognizes n p L)
    {s s' : TokenStream}
    {as : List α}
    (hEnd : s.HasEnd)
    (hBound : s.length < n)
    (h : manyUntil p hp close s = .ok (as, s')) :
    ∃ ts t,
      Grammar.IsRepeated L ts as ∧ t.kind = close ∧
        s = s'.prepend (ts ++ [t]) := by
  fun_induction manyUntil p hp close s generalizing as with
  | case1 s hClose =>
      cases h
      exact ⟨[], s.current, .nil, hClose, hEnd.eq_prepend⟩
  | case2 => cases h
  | case3 => cases h
  | case4 s hOpen a s₁ hFirst hLt rest s₂ hRest ih =>
      cases h
      rcases (hWords.follows s hEnd hBound).sound a s₁ hFirst
        with ⟨ts, hWord, rfl⟩
      have hEnd₁ := hEnd.of_prepend (hWords.inner ts a hWord)
      rcases ih hEnd₁ (Nat.lt_trans hLt hBound) hRest with
        ⟨us, t, hWords', hClose, rfl⟩
      refine ⟨ts ++ us, t, .cons hWord hWords', hClose, ?_⟩
      rw [List.append_assoc, TokenStream.prepend_append ts]

/- Repetition rejects where the word that it is at stops. -/
theorem manyUntil_prompt
    (hWords : Recognizes n p L)
    (hAvoids : Avoids L close)
    {s : TokenStream}
    {e : ParseError}
    (hEnd : s.HasEnd)
    (hBound : s.length < n)
    (h : manyUntil p hp close s = .error e) :
    RejectsAt (manyUntil p hp close) (Grammar.IsRepeated L)
      s e := by
  have hOne :
      ∀ {ts : List Token} {a : α},
        L ts a → Grammar.IsRepeated L ts [a] := by
    intro ts a hWord
    have hCons := Grammar.IsRepeated.cons hWord .nil
    rwa [List.append_nil] at hCons
  fun_induction manyUntil p hp close s with
  | case1 => cases h
  | case2 s hOpen e' hFirst =>
      cases h
      rcases (hWords.follows s hEnd hBound).prompt e hFirst
        with ⟨ts, rest, rfl, ⟨us, a, hWord⟩, hFails⟩
      refine ⟨ts, rest, rfl, ⟨us, [a], hOne hWord⟩, ?_⟩
      intro s'
      rw [TokenStream.current_prepend_concat ts _ rest s']
        at hOpen
      exact manyUntil_of_error hOpen (hFails s')
  | case3 s hOpen a s₁ hFirst hLt e' hRest ih =>
      cases h
      rcases (hWords.follows s hEnd hBound).sound a s₁ hFirst
        with ⟨ts, hWord, rfl⟩
      have hEnd₁ := hEnd.of_prepend (hWords.inner ts a hWord)
      rcases ih hEnd₁ (Nat.lt_trans hLt hBound) hRest with
        ⟨us, rest, rfl, ⟨vs, as, hWords'⟩, hFails⟩
      refine ⟨ts ++ us, rest, ?_, ⟨vs, a :: as, ?_⟩, ?_⟩
      · rw [List.append_assoc, TokenStream.prepend_append ts]
      · rw [List.append_assoc]
        exact .cons hWord hWords'
      · intro s'
        rw [List.append_assoc, TokenStream.prepend_append ts,
          manyUntil_prepend hWords.toTakes hAvoids
            (hOne hWord),
          hFails s']
        rfl
  | case4 => cases h

/-
  Repetition recognizes words one after another, with a
  closing token behind them, which no word starts with.
-/
theorem recognizes_manyUntil
    (hClose : close ≠ .endOfText)
    (hWords : Recognizes n p L)
    (hAvoids : Avoids L close) :
    Recognizes n (manyUntil p hp close)
      (fun ts as =>
        ∃ us t,
          ts = us ++ [t] ∧ Grammar.IsRepeated L us as ∧
            t.kind = close) where
  inhabited :=
    ⟨[⟨close, "", .first⟩], [], [], _, rfl, .nil, rfl⟩
  inner := by
    rintro ts as ⟨us, t, rfl, hRepeated, ht⟩ u hu
    rcases List.mem_append.mp hu with hu | hu
    · exact hRepeated.forall_mem hWords.inner u hu
    · obtain rfl := List.mem_singleton.mp hu
      exact ht ▸ hClose
  complete := by
    rintro ts as s ⟨us, t, rfl, hRepeated, ht⟩
    rw [TokenStream.prepend_append,
      manyUntil_prepend hWords.toTakes hAvoids hRepeated,
      manyUntil_of_close (s := s.prepend [t]) ht]
    simp [Except.map]
  follows := by
    intro s hEnd hBound
    constructor
    · intro as s' h
      rcases manyUntil_sound hWords hEnd hBound h with
        ⟨ts, t, hRepeated, ht, hRest⟩
      exact ⟨ts ++ [t], ⟨ts, t, rfl, hRepeated, ht⟩, hRest⟩
    · intro e h
      rcases manyUntil_prompt hWords hAvoids hEnd hBound h with
        ⟨ts, rest, hRest, ⟨us, as, hRepeated⟩, hFails⟩
      refine ⟨ts, rest, hRest,
        ⟨us ++ [⟨close, "", .first⟩], as, ?_⟩, hFails⟩
      exact ⟨ts ++ us, _, by rw [List.append_assoc],
        hRepeated, rfl⟩

end Repetition

end Parser

end TagWire
