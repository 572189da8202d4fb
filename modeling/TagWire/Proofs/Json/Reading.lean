import TagWire.Proofs.Json.Strings

/-
  A text of a JSON value is read back, up to a separator or a
  bracket that ends it: strings as their units, natural
  numbers as their digits, and objects member by member.

  Main declarations:
    * `JsonPart.Follows`
    * `JsonPart.natural?_natBytes`
    * `JsonPart.json?`
    * `Json.ReadsAs`
    * `Json.exists_readsAs`
    * `Json.exists_ofBytes?`
-/

------------------------------------------------------------
-- Digits
------------------------------------------------------------

namespace TagWire

open Text

namespace JsonPart

/- The first digit is a zero for the number zero only. -/
theorem head?_toDigits_ne
    {n : Nat}
    (h : 0 < n) :
    (Nat.toDigits 10 n).head? ≠ some '0' := by
  have hDigit :
      ∀ d < 10, 0 < d → [Nat.digitChar d].head? ≠ some '0' := by
    decide
  induction n using Nat.strongRecOn with
  | ind n ih =>
      rw [Nat.toDigits_eq_if (by decide)]
      split
      · next hSmall => exact hDigit n hSmall h
      · next hLarge =>
          have hHead := ih (n / 10) (by omega) (by omega)
          rcases List.exists_cons_of_ne_nil
            (Nat.toDigits_ne_nil (n := n / 10) (b := 10)) with
            ⟨d, rest, hDigits⟩
          rw [hDigits] at hHead ⊢
          exact hHead

theorem mem_natBytes
    {n : Nat}
    {b : UInt8}
    (h : b ∈ natBytes n) :
    isDigitByte b = true := by
  rcases List.mem_map.mp h with ⟨c, hc, rfl⟩
  exact (isDigitByte_ascii
    (Nat.isDigit_of_mem_toDigits (by decide) (by decide) hc)).2

/- A number has a first digit, a zero if the number is zero. -/
theorem exists_natBytes
    (n : Nat) :
    ∃ b bytes, natBytes n = b :: bytes ∧
      isDigitByte b = true ∧ (b = 0x30 → n = 0) := by
  rcases List.exists_cons_of_ne_nil
      (Nat.toDigits_ne_nil (n := n) (b := 10)) with
    ⟨d, digits, hDigits⟩
  have hBytes : natBytes n = ascii d :: digits.map ascii := by
    rw [natBytes, hDigits]
    rfl
  have hDigit : d.isDigit = true :=
    Nat.isDigit_of_mem_toDigits (n := n) (by decide)
      (by decide) (hDigits ▸ List.mem_cons_self)
  refine ⟨_, _, hBytes, (isDigitByte_ascii hDigit).2, ?_⟩
  intro hZero
  have hNumber : d.toNat = '0'.toNat := by
    rw [← toNat_ascii (isDigitByte_ascii hDigit).1, hZero]
    rfl
  by_contra hPos
  apply head?_toDigits_ne (Nat.pos_of_ne_zero hPos)
  rw [hDigits, Char.toNat_inj.mp hNumber]
  rfl

/- The digits of a number have its value. -/
theorem natural?_natBytes
    (n : Nat) :
    natural? (.number (natBytes n)) = some n := by
  have hAll : (natBytes n).all isDigitByte = true :=
    List.all_eq_true.mpr fun b hb => mem_natBytes hb
  have hValue : digitsValue (natBytes n) = n := by
    have hFold :
        ∀ (cs : List Char) (m : Nat),
          (∀ c ∈ cs, c.isDigit = true) →
            (cs.map ascii).foldl
                (fun n b => 10 * n + (b.toNat - '0'.toNat)) m =
              Nat.ofDigitChars 10 cs m := by
      intro cs
      induction cs with
      | nil => exact fun _ _ => rfl
      | cons c rest ih =>
          intro m hDigits
          have hDigit := hDigits c List.mem_cons_self
          rw [List.map_cons, List.foldl_cons,
            toNat_ascii (isDigitByte_ascii hDigit).1,
            ih _ fun d hd =>
              hDigits d (List.mem_cons_of_mem _ hd)]
          rfl
    unfold digitsValue natBytes
    rw [hFold _ _ fun c hc =>
      Nat.isDigit_of_mem_toDigits (by decide) (by decide) hc]
    exact Nat.ofDigitChars_ten_toDigits
  rw [natural?, if_pos hAll, hValue]

/- Bytes that end a value: a separator or a closing bracket. -/
def Follows
    (rest : List UInt8) :
    Prop :=
  ∀ b ∈ rest.head?, b = 0x2C ∨ b = 0x5D ∨ b = 0x7D

/- What ends a value does not belong to a number. -/
theorem Follows.notNumber
    {rest : List UInt8}
    (h : Follows rest) :
    rest.takeWhile isDigitByte = [] ∧
      readFraction? rest = some ([], rest) ∧
      readExponent? rest = some ([], rest) := by
  cases rest with
  | nil => exact ⟨rfl, rfl, rfl⟩
  | cons b rest =>
      rcases h b rfl with rfl | rfl | rfl <;>
        exact ⟨rfl, rfl, rfl⟩

/- The whole part of a number is all of its digits. -/
theorem readWhole?_natBytes
    (n : Nat)
    {rest : List UInt8}
    (h : Follows rest) :
    readWhole? (natBytes n ++ rest) =
      some (natBytes n, rest) := by
  have hTake :
      (natBytes n ++ rest).takeWhile isDigitByte =
        natBytes n := by
    rw [List.takeWhile_append_of_pos fun b hb => mem_natBytes hb,
      h.notNumber.1, List.append_nil]
  rcases exists_natBytes n with
    ⟨b, bytes, hBytes, _, hZero⟩
  have hDigits :
      readDigits? (natBytes n ++ rest) =
        some (natBytes n, rest) := by
    unfold readDigits?
    simp only [hTake, List.drop_left]
    rw [hBytes]
    rfl
  by_cases hFirst : b = 0x30
  · obtain rfl := hZero hFirst
    rfl
  · rw [hBytes, List.cons_append] at hDigits ⊢
    rw [readWhole?, hDigits]
    exact fun _ hSame => hFirst (List.cons.inj hSame).1

/- A natural number is read up to what ends it. -/
theorem readNumber?_natBytes
    (n : Nat)
    {rest : List UInt8}
    (h : Follows rest) :
    readNumber? (natBytes n ++ rest) =
      some (.number (natBytes n), rest) := by
  rcases exists_natBytes n with ⟨b, bytes, hBytes, hDigit, _⟩
  have hMinus :
      readMinus (natBytes n ++ rest) =
        ([], natBytes n ++ rest) := by
    rw [hBytes, List.cons_append, readMinus]
    intro _ hSame
    rw [(List.cons.inj hSame).1] at hDigit
    cases hDigit
  unfold readNumber?
  rw [hMinus]
  simp [readWhole?_natBytes n h, h.notNumber]

end JsonPart

end TagWire

------------------------------------------------------------
-- Values
------------------------------------------------------------

namespace TagWire

open Text

namespace JsonPart

mutual

/- The value that a part is, if its numbers are natural. -/
def json? : JsonPart → Option Json
| null => some .null
| bool b => some (.bool b)
| number text => do
    let n ← natural? (number text)
    return .int n
| string units => do
    let text ← unitText? units
    return .string text
| array elements => do
    let elements ← jsonElements? elements
    return .array elements
| object members => do
    let members ← jsonMembers? members
    return .object members

def jsonElements? : List JsonPart → Option (List Json)
| [] => some []
| part :: rest => do
    let j ← part.json?
    let others ← jsonElements? rest
    return j :: others

def jsonMembers? :
    List (List JsonUnit × JsonPart) →
      Option (List (String × Json))
| [] => some []
| (key, part) :: rest => do
    let text ← unitText? key
    let j ← part.json?
    let others ← jsonMembers? rest
    return (text, j) :: others

end

end JsonPart

namespace Json

open JsonPart

/-
  Some bytes are read as a part, up to what ends it. A budget
  of as many calls as there are bytes suffices.
-/
def ReadsAs
    (bytes : List UInt8)
    (part : JsonPart) :
    Prop :=
  ∀ (budget : Nat) (rest : List UInt8),
    bytes.length ≤ budget →
      Follows rest →
        readValue? budget (bytes ++ rest) = some (part, rest)

/- Only bytes behind the first one need a budget. -/
theorem readsAs_of_cons
    {part : JsonPart}
    {b : UInt8}
    {bytes : List UInt8}
    (h :
      ∀ budget rest, bytes.length ≤ budget → Follows rest →
        readValue? (budget + 1) (b :: (bytes ++ rest)) =
          some (part, rest)) :
    ReadsAs (b :: bytes) part := by
  intro budget rest hBudget hRest
  obtain ⟨budget, rfl⟩ :=
    Nat.exists_eq_add_one.mpr (Nat.zero_lt_of_lt hBudget)
  exact h budget rest (Nat.le_of_succ_le_succ hBudget) hRest

/- What is not blank is not skipped. -/
theorem skipBlanks_cons
    {b : UInt8}
    (h : isBlankByte b = false)
    (rest : List UInt8) :
    skipBlanks (b :: rest) = b :: rest :=
  List.dropWhile_cons_of_neg (by simp [h])

theorem readsAs_null :
    ReadsAs (Utf8.encode "null") .null :=
  readsAs_of_cons fun _ _ _ _ => rfl

theorem exists_readsAs_string
    {text : String}
    {bytes : List UInt8}
    (h : IsQuoted text bytes) :
    ∃ units,
      ReadsAs bytes (.string units) ∧
        unitText? units = some text := by
  rcases h.exists_units with ⟨body, units, rfl, hRead, hText⟩
  refine ⟨units, readsAs_of_cons ?_, hText⟩
  intro budget rest _ _
  rw [readValue?, skipBlanks_cons (b := 0x22) rfl]
  simp only [hRead]
  rfl

/- A word is not found where another letter starts. -/
theorem afterWord?_eq_none
    (word : String)
    {b b' : UInt8}
    {bytes : List UInt8}
    (hWord : Utf8.encode word = b' :: bytes)
    (hNe : b ≠ b')
    (rest : List UInt8) :
    afterWord? word (b :: rest) = none := by
  unfold afterWord?
  rw [hWord]
  simp [Ne.symm hNe]

/- Where a digit stands, a number is read. -/
theorem readValue?_of_isDigitByte
    {b : UInt8}
    (h : isDigitByte b = true)
    (budget : Nat)
    (rest : List UInt8) :
    readValue? (budget + 1) (b :: rest) =
      readNumber? (b :: rest) := by
  have hNe : ∀ b', isDigitByte b' = false → b ≠ b' := by
    rintro b' hOther rfl
    rw [h] at hOther
    cases hOther
  have hBlank : isBlankByte b = false := by
    simp only [isBlankByte, Bool.or_eq_false_iff,
      beq_eq_false_iff_ne]
    exact
      ⟨⟨⟨hNe _ rfl, hNe _ rfl⟩, hNe _ rfl⟩, hNe _ rfl⟩
  have hFirst :
      ∀ b' bytes, isDigitByte b' = false →
        b :: rest ≠ b' :: bytes :=
    fun b' _ hOther hSame =>
      hNe b' hOther (List.cons.inj hSame).1
  rw [readValue?, skipBlanks_cons hBlank]
  split
  · next hSame => exact absurd hSame (hFirst _ _ rfl)
  · next hSame => exact absurd hSame (hFirst _ _ rfl)
  · next hSame => exact absurd hSame (hFirst _ _ rfl)
  · rw [afterWord?_eq_none "null" rfl (hNe _ rfl),
      afterWord?_eq_none "true" rfl (hNe _ rfl),
      afterWord?_eq_none "false" rfl (hNe _ rfl)]

theorem readsAs_nat
    (n : Nat) :
    ReadsAs (natBytes n) (.number (natBytes n)) := by
  rcases exists_natBytes n with ⟨b, bytes, hBytes, hDigit, _⟩
  rw [hBytes]
  apply readsAs_of_cons
  intro budget rest _ hRest
  have hNumber := readNumber?_natBytes n hRest
  rw [hBytes, List.cons_append] at hNumber
  rw [readValue?_of_isDigitByte hDigit, hNumber]

end Json

end TagWire

------------------------------------------------------------
-- Objects
------------------------------------------------------------

namespace TagWire

open Text

namespace Json

open JsonPart

variable {members : List (String × Json)}
variable {bytes key value : List UInt8}
variable {part : JsonPart}

/- Some bytes are read as members, up to the bracket. -/
def MembersReadAs
    (bytes : List UInt8)
    (parts : List (List JsonUnit × JsonPart)) :
    Prop :=
  ∀ (budget : Nat) (rest : List UInt8),
    bytes.length ≤ budget →
      readMembers? budget (bytes ++ 0x7D :: rest) =
        some (parts, rest)

/- One member is read, and then what is behind it. -/
theorem exists_readMembers?_member
    {text : String}
    (hKey : IsQuoted text key)
    (hValue : ReadsAs value part) :
    ∃ units,
      unitText? units = some text ∧
      ∀ budget behind,
        value.length ≤ budget →
        Follows behind →
          readMembers? (budget + 1)
              (key ++ 0x3A :: (value ++ behind)) =
            match skipBlanks behind with
            | 0x2C :: rest => do
                let (members, rest) ← readMembers? budget rest
                return ((units, part) :: members, rest)
            | 0x7D :: rest => some ([(units, part)], rest)
            | _ => none := by
  rcases hKey.exists_units with ⟨body, units, rfl, hRead, hText⟩
  refine ⟨units, hText, ?_⟩
  intro budget behind hBudget hBehind
  have hColon :
      ∀ rest, skipBlanks (0x3A :: rest) = 0x3A :: rest :=
    skipBlanks_cons rfl
  rw [List.cons_append, readMembers?,
    skipBlanks_cons (b := 0x22) rfl]
  simp only [hRead, hColon, hValue budget behind hBudget hBehind,
    Option.bind_eq_bind, Option.bind_some]
  rfl

/- The last member is read with the bracket behind it. -/
theorem exists_membersReadAs_last
    {text : String}
    (hKey : IsQuoted text key)
    (hValue : ReadsAs value part) :
    ∃ units,
      unitText? units = some text ∧
        MembersReadAs (key ++ 0x3A :: value)
          [(units, part)] := by
  rcases exists_readMembers?_member hKey hValue with
    ⟨units, hText, hRead⟩
  refine ⟨units, hText, ?_⟩
  intro budget rest hBudget
  rw [List.length_append, List.length_cons] at hBudget
  obtain ⟨budget, rfl⟩ :=
    Nat.exists_eq_add_one.mpr (show 0 < budget by omega)
  rw [List.append_assoc, List.cons_append]
  exact hRead budget _ (by omega) (by simp [Follows])

/- A member is read, and then the members behind it. -/
theorem exists_membersReadAs_more
    {text : String}
    {parts : List (List JsonUnit × JsonPart)}
    (hKey : IsQuoted text key)
    (hValue : ReadsAs value part)
    (hRest : MembersReadAs bytes parts) :
    ∃ units,
      unitText? units = some text ∧
        MembersReadAs (key ++ 0x3A :: (value ++ 0x2C :: bytes))
          ((units, part) :: parts) := by
  rcases exists_readMembers?_member hKey hValue with
    ⟨units, hText, hRead⟩
  refine ⟨units, hText, ?_⟩
  intro budget rest hBudget
  simp only [List.length_append, List.length_cons] at hBudget
  obtain ⟨budget, rfl⟩ :=
    Nat.exists_eq_add_one.mpr (show 0 < budget by omega)
  have hNext := hRest budget rest (by omega)
  rw [List.append_assoc, List.cons_append, List.append_assoc,
    List.cons_append,
    hRead budget _ (by omega) (by simp [Follows])]
  show ((readMembers? budget _).bind _) = _
  rw [hNext]
  rfl

/- The first member starts with the quote of its key. -/
theorem IsMembers.exists_cons
    (h : IsMembers members bytes) :
    ∃ rest, bytes = 0x22 :: rest := by
  cases h with
  | last hKey _ =>
      rcases hKey with ⟨parts, _, rfl⟩
      exact ⟨_, rfl⟩
  | more hKey _ _ =>
      rcases hKey with ⟨parts, _, rfl⟩
      exact ⟨_, rfl⟩

theorem readsAs_empty :
    ReadsAs [0x7B, 0x7D] (.object []) :=
  readsAs_of_cons fun _ _ _ _ => rfl

/- An object is read as the parts of its members. -/
theorem readsAs_object
    {parts : List (List JsonUnit × JsonPart)}
    (hMembers : IsMembers members bytes)
    (h : MembersReadAs bytes parts) :
    ReadsAs (0x7B :: (bytes ++ [0x7D])) (.object parts) := by
  rcases hMembers.exists_cons with ⟨body, rfl⟩
  apply readsAs_of_cons
  intro budget rest hBudget _
  rw [List.length_append] at hBudget
  have hRead := h budget rest (by omega)
  rw [List.append_assoc, List.singleton_append, readValue?,
    skipBlanks_cons (b := 0x7B) rfl]
  rw [List.cons_append] at hRead ⊢
  show ((readMembers? budget _).bind _) = _
  rw [hRead]
  rfl

mutual

/- Every text of a value is read as a part that is it. -/
theorem exists_readsAs
    {j : Json}
    {bytes : List UInt8}
    (h : IsText j bytes) :
    ∃ part, ReadsAs bytes part ∧ part.json? = some j := by
  cases h with
  | null => exact ⟨.null, readsAs_null, rfl⟩
  | natural n =>
      refine ⟨_, readsAs_nat n, ?_⟩
      rw [json?, natural?_natBytes]
      rfl
  | string h =>
      rcases exists_readsAs_string h with ⟨units, hRead, hText⟩
      refine ⟨_, hRead, ?_⟩
      rw [json?, hText]
      rfl
  | empty => exact ⟨_, readsAs_empty, rfl⟩
  | object h =>
      rcases exists_membersReadAs h with ⟨parts, hRead, hParts⟩
      refine ⟨_, readsAs_object h hRead, ?_⟩
      rw [json?, hParts]
      rfl

theorem exists_membersReadAs
    {members : List (String × Json)}
    {bytes : List UInt8}
    (h : IsMembers members bytes) :
    ∃ parts,
      MembersReadAs bytes parts ∧
        jsonMembers? parts = some members := by
  cases h with
  | last hKey hValue =>
      rcases exists_readsAs hValue with ⟨part, hPart, hJson⟩
      rcases exists_membersReadAs_last hKey hPart with
        ⟨units, hText, hRead⟩
      refine ⟨_, hRead, ?_⟩
      rw [jsonMembers?, hText, hJson]
      rfl
  | more hKey hValue hRest =>
      rcases exists_readsAs hValue with ⟨part, hPart, hJson⟩
      rcases exists_membersReadAs hRest with
        ⟨parts, hParts, hMembers⟩
      rcases exists_membersReadAs_more hKey hPart hParts with
        ⟨units, hText, hRead⟩
      refine ⟨_, hRead, ?_⟩
      rw [jsonMembers?, hText, hJson, hMembers]
      rfl

end

/- A text is taken apart to what is the value again. -/
theorem exists_ofBytes?
    {j : Json}
    {bytes : List UInt8}
    (h : IsText j bytes) :
    ∃ part, ofBytes? bytes = some part ∧ part.json? = some j := by
  rcases exists_readsAs h with ⟨part, hRead, hJson⟩
  have hRead := hRead _ [] (Nat.le_succ bytes.length) nofun
  rw [List.append_nil] at hRead
  refine ⟨part, ?_, hJson⟩
  unfold ofBytes?
  rw [hRead]
  rfl

end Json

end TagWire
