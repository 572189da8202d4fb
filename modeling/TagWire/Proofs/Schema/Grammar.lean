import Mathlib.Data.List.Induction
import Mathlib.Data.Nat.Digits.Defs
import TagWire.Schema.Parser

/-
  The grammar of schemas, apart from how it is parsed: which
  tokens make a type, a field, a method or a declaration, and
  what they declare.

  Main declarations:
    * `Grammar.IsName`
    * `Grammar.IsSeqNumber`
    * `Grammar.IsType`
    * `Grammar.IsField`
    * `Grammar.IsMethod`
    * `Grammar.IsDeclaration`
    * `Grammar.IsSchema`
    * `Grammar.isIdentifier_iff`
    * `Grammar.seqNumber?_eq_some_iff`
-/

------------------------------------------------------------
-- Words
------------------------------------------------------------

namespace TagWire

namespace Grammar

/- An ASCII letter, or an underscore. -/
def IsLetter
    (c : Char) : Prop :=
  'A' ≤ c ∧ c ≤ 'Z' ∨ 'a' ≤ c ∧ c ≤ 'z' ∨ c = '_'

/- An ASCII digit. -/
def IsDigit
    (c : Char) : Prop :=
  '0' ≤ c ∧ c ≤ '9'

/- A letter, followed by letters and digits. -/
def IsName
    (text : String) : Prop :=
  ∃ c rest,
    text.toList = c :: rest ∧ IsLetter c ∧
      ∀ d ∈ rest, IsLetter d ∨ IsDigit d

/-
  A text that writes a number of one byte: decimal digits,
  perhaps behind a plus sign, of which the last counts one.
-/
def IsSeqNumber
    (text : String)
    (n : UInt8) : Prop :=
  ∃ digits,
    (text.toList = digits ∨ text.toList = '+' :: digits) ∧
      digits ≠ [] ∧ (∀ c ∈ digits, IsDigit c) ∧
      Nat.ofDigits 10
          (digits.reverse.map
            (fun c => c.toNat - '0'.toNat)) =
        n.toNat

/- The characters that start an identifier are letters. -/
theorem isIdentifierStart_iff
    {c : Char} :
    isIdentifierStart c = true ↔ IsLetter c := by
  have hAlpha :
      c.isAlpha =
        (decide ('A' ≤ c ∧ c ≤ 'Z') ||
          (decide ('a' ≤ c) && decide (c ≤ 'z'))) := rfl
  simp [isIdentifierStart, IsLetter, hAlpha, or_assoc]

/- The characters of an identifier are letters and digits. -/
theorem isIdentifierPart_iff
    {c : Char} :
    isIdentifierPart c = true ↔ IsLetter c ∨ IsDigit c := by
  rw [← isIdentifierStart_iff]
  simp only [isIdentifierPart, isIdentifierStart, IsDigit,
    Char.isAlphanum, Bool.or_eq_true, Char.isDigit,
    Bool.and_eq_true, decide_eq_true_eq, Char.le_def]
  exact or_right_comm

/- The check of identifiers accepts exactly the names. -/
theorem isIdentifier_iff
    {text : String} :
    isIdentifier text = true ↔ IsName text := by
  unfold isIdentifier IsName
  cases text.toList with
  | nil => simp
  | cons c rest =>
      simp [isIdentifierStart_iff, isIdentifierPart_iff]

/- Decimal digits are read from the left to the right. -/
theorem decimalValue_eq
    (digits : List Char) :
    decimalValue digits =
      Nat.ofDigits 10
        (digits.reverse.map
          (fun c => c.toNat - '0'.toNat)) := by
  induction digits using List.reverseRecOn with
  | nil => rfl
  | append_singleton digits c ih =>
      unfold decimalValue at ih ⊢
      rw [List.foldl_append, ih]
      simp [Nat.ofDigits_cons, Nat.add_comm]

theorem isDigits_iff
    {digits : List Char} :
    isDigits digits = true ↔
      digits ≠ [] ∧ ∀ c ∈ digits, IsDigit c := by
  simp [isDigits, isDigit, IsDigit]

/- A sign that is dropped is a plus. -/
theorem eq_or_eq_cons_dropPlus
    (cs : List Char) :
    cs = dropPlus cs ∨ cs = '+' :: dropPlus cs := by
  unfold dropPlus
  split
  · exact .inr rfl
  · exact .inl rfl

/- Digits have no sign to drop. -/
theorem dropPlus_of_digits
    {digits : List Char}
    (h : ∀ c ∈ digits, IsDigit c) :
    dropPlus digits = digits := by
  unfold dropPlus
  split
  · next cs =>
      have hPlus : IsDigit '+' := h '+' List.mem_cons_self
      exact absurd hPlus.1 (by decide)
  · rfl

/- The check of sequence numbers accepts what writes one. -/
theorem seqNumber?_eq_some_iff
    {text : String}
    {n : UInt8} :
    seqNumber? text = some n ↔ IsSeqNumber text n := by
  unfold seqNumber?
  simp only [Bool.and_eq_true, isDigits_iff,
    decide_eq_true_eq, decimalValue_eq,
    Option.ite_none_right_eq_some, Option.some.injEq]
  constructor
  · intro h
    rcases h with ⟨⟨⟨hSome, hDigits⟩, hBound⟩, rfl⟩
    refine ⟨dropPlus text.toList,
      eq_or_eq_cons_dropPlus _, hSome, hDigits, ?_⟩
    rw [UInt8.toNat_ofNat_of_lt' (Nat.lt_succ_of_le hBound)]
  · intro h
    rcases h with ⟨digits, hText, hSome, hDigits, hValue⟩
    have hDrop : dropPlus text.toList = digits := by
      rcases hText with hText | hText
      · rw [hText, dropPlus_of_digits hDigits]
      · rw [hText, dropPlus]
    rw [hDrop, hValue]
    exact ⟨⟨⟨hSome, hDigits⟩, Nat.le_of_lt_succ n.toNat_lt⟩,
      UInt8.ofNat_toNat⟩

end Grammar

end TagWire

------------------------------------------------------------
-- Types
------------------------------------------------------------

namespace TagWire

namespace Grammar

/- A token that names something. -/
def IsIdentifier
    (t : Token) : Prop :=
  t.kind = .identifier ∧ IsName t.text

/-
  Tokens that write a type. The brackets of a list hold its
  element type; those of a map hold the key only, and the type
  of the values stands behind them.
-/
inductive IsType : List Token → TypeExpr String → Prop
| scalar
    {t : Token}
    {kind : ScalarKind}
    (hKind : t.kind = .builtin)
    (hText : t.text = kind.name) :
    IsType [t] (.scalar kind)
| named
    {t : Token}
    (hName : IsIdentifier t) :
    IsType [t] (.named t.text)
| list
    {word opening closing : Token}
    {ts : List Token}
    {element : TypeExpr String}
    (hKind : word.kind = .builtin)
    (hText : word.text = "list")
    (hOpening : opening.kind = .mark .leftBracket)
    (hElement : IsType ts element)
    (hClosing : closing.kind = .mark .rightBracket) :
    IsType (word :: opening :: (ts ++ [closing]))
      (.list element)
| map
    {word opening key closing : Token}
    {kind : ScalarKind}
    {ts : List Token}
    {value : TypeExpr String}
    (hKind : word.kind = .builtin)
    (hText : word.text = "map")
    (hOpening : opening.kind = .mark .leftBracket)
    (hKeyKind : key.kind = .builtin)
    (hKeyText : key.text = kind.name)
    (hClosing : closing.kind = .mark .rightBracket)
    (hValue : IsType ts value) :
    IsType (word :: opening :: key :: closing :: ts)
      (.map kind value)

------------------------------------------------------------
-- Fields and Methods
------------------------------------------------------------

/- Tokens that write a field which has to be set. -/
inductive IsRequiredField : List Token → Field String → Prop
| intro
    {word sign number name closing : Token}
    {seq : UInt8}
    {ts : List Token}
    {type : TypeExpr String}
    (hWord : word.kind = .keyword .seq)
    (hSign : sign.kind = .mark .assign)
    (hKind : number.kind = .number)
    (hNumber : IsSeqNumber number.text seq)
    (hType : IsType ts type)
    (hName : IsIdentifier name)
    (hClosing : closing.kind = .mark .semicolon) :
    IsRequiredField
      (word :: sign :: number :: (ts ++ [name, closing]))
      ⟨name.text, seq, false, type, word.position⟩

/- Tokens that write a field, which starts at the first one. -/
inductive IsField : List Token → Field String → Prop
| required
    {ts : List Token}
    {f : Field String}
    (hField : IsRequiredField ts f) :
    IsField ts f
| optional
    {word : Token}
    {ts : List Token}
    {f : Field String}
    (hWord : word.kind = .keyword .optional)
    (hField : IsRequiredField ts f) :
    IsField (word :: ts)
      { f with optional := true, position := word.position }

/- Tokens that write the reply of a method, or none. -/
inductive IsReply : List Token → Option String → Prop
| none : IsReply [] none
| some
    {word opening name closing : Token}
    (hWord : word.kind = .keyword .return)
    (hOpening : opening.kind = .mark .leftParen)
    (hName : IsIdentifier name)
    (hClosing : closing.kind = .mark .rightParen) :
    IsReply [word, opening, name, closing] (some name.text)

/- Tokens that write a method, which starts at its name. -/
inductive IsMethod : List Token → Method → Prop
| intro
    {name opening request closing ending : Token}
    {ts : List Token}
    {reply : Option String}
    (hName : IsIdentifier name)
    (hOpening : opening.kind = .mark .leftParen)
    (hRequest : IsIdentifier request)
    (hClosing : closing.kind = .mark .rightParen)
    (hReply : IsReply ts reply)
    (hEnding : ending.kind = .mark .semicolon) :
    IsMethod
      (name :: opening :: request :: closing ::
        (ts ++ [ending]))
      ⟨name.text, request.text, reply, name.position⟩

------------------------------------------------------------
-- Declarations
------------------------------------------------------------

/-
  Tokens that write names with commas between them. The last
  name may have a comma behind it too.
-/
inductive IsVariants : List Token → List String → Prop
| nil : IsVariants [] []
| last
    {name : Token}
    (hName : IsIdentifier name) :
    IsVariants [name] [name.text]
| cons
    {name comma : Token}
    {ts : List Token}
    {names : List String}
    (hName : IsIdentifier name)
    (hComma : comma.kind = .mark .comma)
    (hRest : IsVariants ts names) :
    IsVariants (name :: comma :: ts) (name.text :: names)

/- Tokens that write things of one sort, one after another. -/
inductive IsRepeated
    {α : Type}
    (IsOne : List Token → α → Prop) :
    List Token → List α → Prop
| nil : IsRepeated IsOne [] []
| cons
    {ts us : List Token}
    {a : α}
    {as : List α}
    (hHead : IsOne ts a)
    (hRest : IsRepeated IsOne us as) :
    IsRepeated IsOne (ts ++ us) (a :: as)

/- What holds of all tokens of a thing holds of repeated ones. -/
theorem IsRepeated.forall_mem
    {α : Type}
    {IsOne : List Token → α → Prop}
    {P : Token → Prop}
    {ts : List Token}
    {as : List α}
    (h : IsRepeated IsOne ts as)
    (hOne : ∀ us a, IsOne us a → ∀ t ∈ us, P t) :
    ∀ t ∈ ts, P t := by
  induction h with
  | nil =>
      intro t ht
      cases ht
  | cons hHead _ ih =>
      intro t ht
      rcases List.mem_append.mp ht with ht | ht
      · exact hOne _ _ hHead t ht
      · exact ih t ht

/- Tokens that write a declaration, which starts the first. -/
inductive IsDeclaration :
    List Token → Declaration String → Prop
| enum
    {word name opening closing : Token}
    {ts : List Token}
    {variants : List String}
    (hWord : word.kind = .keyword .enum)
    (hName : IsIdentifier name)
    (hOpening : opening.kind = .mark .leftBrace)
    (hVariants : IsVariants ts variants)
    (hClosing : closing.kind = .mark .rightBrace) :
    IsDeclaration (word :: name :: opening :: (ts ++ [closing]))
      (.enum
        ⟨Names.firstUpper name.text,
          variants.map Names.firstUpper, word.position⟩)
| message
    {word name opening closing : Token}
    {ts : List Token}
    {fields : List (Field String)}
    (hWord : word.kind = .keyword .message)
    (hName : IsIdentifier name)
    (hOpening : opening.kind = .mark .leftBrace)
    (hFields : IsRepeated IsField ts fields)
    (hClosing : closing.kind = .mark .rightBrace) :
    IsDeclaration (word :: name :: opening :: (ts ++ [closing]))
      (.message
        ⟨Names.firstUpper name.text, fields, word.position⟩)
| service
    {word name opening closing : Token}
    {ts : List Token}
    {methods : List Method}
    (hWord : word.kind = .keyword .service)
    (hName : IsIdentifier name)
    (hOpening : opening.kind = .mark .leftBrace)
    (hMethods : IsRepeated IsMethod ts methods)
    (hClosing : closing.kind = .mark .rightBrace) :
    IsDeclaration (word :: name :: opening :: (ts ++ [closing]))
      (.service ⟨name.text, methods, word.position⟩)

/-
  Tokens that write a schema: declarations, and the end of the
  text. The schema has those of each sort in this order.
-/
inductive IsSchema : List Token → ParsedSchema → Prop
| intro
    {ts : List Token}
    {ds : List (Declaration String)}
    {ending : Token}
    (hDeclarations : IsRepeated IsDeclaration ts ds)
    (hEnding : ending.kind = .endOfText) :
    IsSchema (ts ++ [ending]) (Schema.ofDeclarations ds)

end Grammar

end TagWire
