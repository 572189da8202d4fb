import TagWire.Proofs.Wire.Passing
import TagWire.Wire.Item

/-
  Runs of items of any kinds. A run of reading steps succeeds
  exactly where the encodings of some items of these kinds
  stand one behind the other, so reading undoes writing, and
  writing undoes reading.

  Main declarations:
    * `Item.Fits`
    * `Item.writeAll`
    * `ReadStep.runAll`
    * `ReadStep.run_eq_ok_iff`
    * `ReadStep.runAll_eq_ok_iff`
    * `ReadStep.runAll_writeAll`
-/

------------------------------------------------------------
-- Writing
------------------------------------------------------------

namespace TagWire

namespace Item

/- The length of an item fits its prefix, if it has one. -/
def Fits : Item → Prop
| length n => n ≤ maxLength
| string s => s.utf8ByteSize ≤ maxLength
| _ => True

instance : DecidablePred Fits
| length n => inferInstanceAs (Decidable (n ≤ maxLength))
| string s =>
    inferInstanceAs (Decidable (s.utf8ByteSize ≤ maxLength))
| byte _ | tag _ | number _ _ | bytes _ =>
    inferInstanceAs (Decidable True)

/- Write some items in turn, with nothing written before. -/
def writeAll
    (items : List Item) :
    Except WireError (List UInt8) :=
  items.foldlM append []

/- An item is encoded when its length fits. -/
theorem exists_encode_iff
    {item : Item} :
    (∃ bytes, item.encode = .ok bytes) ↔ item.Fits := by
  cases item with
  | length n => exact exists_encodeLength_iff
  | string s => exact exists_encodeString_iff
  | _ => exact iff_of_true ⟨_, rfl⟩ trivial

/- Items are written behind what is written before. -/
theorem foldlM_append_eq_ok_iff
    {items : List Item}
    {written data : List UInt8} :
    items.foldlM append written = .ok data ↔
      ∃ parts, items.mapM encode = .ok parts ∧
        data = written ++ parts.flatten := by
  induction items generalizing written with
  | nil =>
      simp only [List.foldlM_nil, List.mapM_nil,
        Outcome.pure_eq_ok_iff]
      constructor
      · intro h
        rcases h with rfl
        exact ⟨[], rfl, (List.append_nil _).symm⟩
      · intro h
        rcases h with ⟨_, rfl, rfl⟩
        exact (List.append_nil _).symm
  | cons item rest ih =>
      simp only [List.foldlM_cons, List.mapM_cons, append,
        Outcome.bind_eq_ok_iff, Outcome.pure_eq_ok_iff, ih]
      constructor
      · intro h
        rcases h with
          ⟨_, ⟨bytes, hItem, rfl⟩, parts, hRest, rfl⟩
        refine ⟨_, ⟨bytes, hItem, parts, hRest, rfl⟩, ?_⟩
        rw [List.flatten_cons, List.append_assoc]
      · intro h
        rcases h with
          ⟨_, ⟨bytes, hItem, parts, hRest, rfl⟩, rfl⟩
        refine ⟨_, ⟨bytes, hItem, rfl⟩, parts, hRest, ?_⟩
        rw [List.flatten_cons, List.append_assoc]

/- Items are written one behind the other. -/
theorem writeAll_eq_ok_iff
    {items : List Item}
    {data : List UInt8} :
    writeAll items = .ok data ↔
      ∃ parts, items.mapM encode = .ok parts ∧
        data = parts.flatten :=
  foldlM_append_eq_ok_iff

/- The bytes of the first item come before the others. -/
theorem writeAll_cons_eq_ok_iff
    {item : Item}
    {items : List Item}
    {data : List UInt8} :
    writeAll (item :: items) = .ok data ↔
      ∃ bytes rest,
        item.encode = .ok bytes ∧
          writeAll items = .ok rest ∧ data = bytes ++ rest := by
  simp only [writeAll_eq_ok_iff, List.mapM_cons,
    Outcome.bind_eq_ok_iff, Outcome.pure_eq_ok_iff]
  constructor
  · intro h
    rcases h with
      ⟨_, ⟨bytes, hItem, parts, hRest, rfl⟩, rfl⟩
    exact ⟨bytes, _, hItem, ⟨parts, hRest, rfl⟩,
      List.flatten_cons⟩
  · intro h
    rcases h with
      ⟨bytes, _, hItem, ⟨parts, hRest, rfl⟩, rfl⟩
    exact ⟨_, ⟨bytes, hItem, parts, hRest, rfl⟩,
      List.flatten_cons.symm⟩

/- Items are written when the lengths of all of them fit. -/
theorem exists_writeAll_iff
    {items : List Item} :
    (∃ data, writeAll items = .ok data) ↔
      ∀ item ∈ items, item.Fits := by
  simp only [writeAll_eq_ok_iff, ← exists_encode_iff,
    ← Outcome.exists_mapM_eq_ok_iff]
  constructor
  · intro h
    rcases h with ⟨_, parts, hParts, _⟩
    exact ⟨parts, hParts⟩
  · intro h
    rcases h with ⟨parts, hParts⟩
    exact ⟨_, parts, hParts, rfl⟩

end Item

end TagWire

------------------------------------------------------------
-- Reading
------------------------------------------------------------

namespace TagWire

namespace Item

/- The step that reads an item of the same kind. -/
def step : Item → ReadStep
| byte _ => .byte
| tag _ => .tag
| number k _ => .number k
| length _ => .length
| string _ => .string
| bytes bs => .bytes bs.length

end Item

namespace ReadStep

open Reader

variable {c c' : Cursor}

/- Take some steps in turn. -/
def runAll
    (steps : List ReadStep) :
    Reader WireError (List (Option Item)) :=
  steps.mapM run

/- Where an item stands, the step of its kind reads it. -/
theorem run_step_of_encode
    {item : Item}
    {bytes : List UInt8}
    (hEncode : item.encode = .ok bytes)
    (hPasses : c.Passes bytes c') :
    item.step.run c = (.ok (some item), c') := by
  cases item with
  | byte b =>
      cases hEncode
      exact bind_of_ok (byte_eq_ok_iff.mpr hPasses)
  | tag b =>
      cases hEncode
      exact bind_of_ok (tag_eq_some_iff.mpr hPasses)
  | number k w =>
      cases hEncode
      exact bind_of_ok (number_eq_ok_iff.mpr hPasses)
  | length n =>
      exact bind_of_ok
        (length_eq_ok_iff.mpr ⟨bytes, hEncode, hPasses⟩)
  | string s =>
      exact bind_of_ok
        (string_eq_ok_iff.mpr ⟨bytes, hEncode, hPasses⟩)
  | bytes bs =>
      cases hEncode
      exact bind_of_ok (bytes_eq_ok_iff.mpr ⟨rfl, hPasses⟩)

/-
  A step reads an item exactly where an item of its kind
  stands, and passes just that.
-/
theorem run_eq_ok_iff
    {step : ReadStep}
    {item : Item} :
    step.run c = (.ok (some item), c') ↔
      item.step = step ∧
        ∃ bytes, item.encode = .ok bytes ∧
          c.Passes bytes c' := by
  constructor
  · intro h
    cases step <;>
      simp only [run, bind_eq_ok_iff, pure_eq_ok_iff] at h
    case byte =>
      rcases h with ⟨b, d, hRead, hSome, rfl⟩
      cases hSome
      exact ⟨rfl, _, rfl, byte_eq_ok_iff.mp hRead⟩
    case tag =>
      rcases h with ⟨b?, d, hRead, hSome, rfl⟩
      rcases Option.map_eq_some_iff.mp hSome with ⟨b, rfl, rfl⟩
      exact ⟨rfl, _, rfl, tag_eq_some_iff.mp hRead⟩
    case number k =>
      rcases h with ⟨w, d, hRead, hSome, rfl⟩
      cases hSome
      exact ⟨rfl, _, rfl, number_eq_ok_iff.mp hRead⟩
    case length =>
      rcases h with ⟨n, d, hRead, hSome, rfl⟩
      cases hSome
      exact ⟨rfl, length_eq_ok_iff.mp hRead⟩
    case string =>
      rcases h with ⟨s, d, hRead, hSome, rfl⟩
      cases hSome
      exact ⟨rfl, string_eq_ok_iff.mp hRead⟩
    case bytes n =>
      rcases h with ⟨bs, d, hRead, hSome, rfl⟩
      cases hSome
      rcases bytes_eq_ok_iff.mp hRead with ⟨rfl, hPasses⟩
      exact ⟨rfl, _, rfl, hPasses⟩
    case skip n =>
      rcases h with ⟨_, d, _, hSome, _⟩
      cases hSome
  · intro h
    rcases h with ⟨rfl, bytes, hEncode, hPasses⟩
    exact run_step_of_encode hEncode hPasses

/- A run of steps is one step and then the others. -/
theorem runAll_cons_eq_ok_iff
    {step : ReadStep}
    {steps : List ReadStep}
    {item : Item}
    {items : List Item} :
    runAll (step :: steps) c =
        (.ok ((item :: items).map some), c') ↔
      ∃ d,
        step.run c = (.ok (some item), d) ∧
          runAll steps d = (.ok (items.map some), c') := by
  unfold runAll
  simp only [List.mapM_cons, bind_eq_ok_iff, pure_eq_ok_iff,
    List.map_cons, List.cons.injEq]
  constructor
  · intro h
    rcases h with
      ⟨_, d, hFirst, _, _, hRest, ⟨rfl, rfl⟩, rfl⟩
    exact ⟨d, hFirst, hRest⟩
  · intro h
    rcases h with ⟨d, hFirst, hRest⟩
    exact ⟨_, d, hFirst, _, c', hRest, ⟨rfl, rfl⟩, rfl⟩

/-
  A run of steps reads some items exactly where items of their
  kinds stand one behind the other, and passes just these.
-/
theorem runAll_eq_ok_iff
    {steps : List ReadStep}
    {items : List Item} :
    runAll steps c = (.ok (items.map some), c') ↔
      items.map Item.step = steps ∧
        ∃ data, Item.writeAll items = .ok data ∧
          c.Passes data c' := by
  induction steps generalizing items c with
  | nil =>
      have hRun :
          runAll [] c = (.ok (items.map some), c') ↔
            [] = items.map some ∧ c = c' :=
        pure_eq_ok_iff
      rw [hRun]
      constructor
      · intro h
        rcases h with ⟨hNone, rfl⟩
        obtain rfl := List.map_eq_nil_iff.mp hNone.symm
        exact ⟨rfl, [], rfl, Cursor.Passes.refl c⟩
      · intro h
        rcases h with ⟨hNone, data, hWrite, hPasses⟩
        obtain rfl := List.map_eq_nil_iff.mp hNone
        cases hWrite
        exact ⟨rfl, (Cursor.Passes.refl c).unique hPasses⟩
  | cons step steps ih =>
      cases items with
      | nil =>
          refine iff_of_false (fun h => ?_) (by simp)
          unfold runAll at h
          rw [List.mapM_cons] at h
          simp only [bind_eq_ok_iff, pure_eq_ok_iff] at h
          rcases h with ⟨_, _, _, _, _, _, hNone, _⟩
          cases hNone
      | cons item items =>
          rw [runAll_cons_eq_ok_iff, List.map_cons,
            List.cons.injEq]
          simp only [run_eq_ok_iff, ih,
            Item.writeAll_cons_eq_ok_iff]
          constructor
          · intro h
            rcases h with
              ⟨d, ⟨hStep, bytes, hItem, hPasses⟩, hSteps, data,
               hItems, hPasses'⟩
            exact
              ⟨⟨hStep, hSteps⟩, _, ⟨bytes, data, hItem, hItems,
                rfl⟩, hPasses.trans hPasses'⟩
          · intro h
            rcases h with
              ⟨⟨hStep, hSteps⟩, _, ⟨bytes, data, hItem, hItems,
               rfl⟩, hPasses⟩
            rcases hPasses.exists_between with
              ⟨d, hFirst, hRest⟩
            exact
              ⟨d, ⟨hStep, bytes, hItem, hFirst⟩, hSteps, data,
                hItems, hRest⟩

/-
  Reading undoes writing: items whose lengths fit are written,
  and steps of their kinds read them all back, up to the end.
  Items with other lengths are not written. Writing undoes
  reading: items that are read by some steps are of the kinds
  of these, and are written as just the bytes passed. Numbers
  stand for integers, each one of which has its own word.
-/
theorem runAll_writeAll :
    (∀ items : List Item,
      (∀ item ∈ items, item.Fits) ↔
        ∃ data c',
          Item.writeAll items = .ok data ∧
            runAll (items.map Item.step) (Cursor.start data) =
              (.ok (items.map some), c') ∧
            c'.remaining = []) ∧
    (∀ (data : List UInt8) (steps : List ReadStep)
      (items : List Item) (c' : Cursor),
      runAll steps (Cursor.start data) =
          (.ok (items.map some), c') →
        items.map Item.step = steps ∧
          Item.writeAll items = .ok (data.take c'.index)) ∧
    (∀ (k : IntKind) (n : Int) (w : k.Word),
      k.word? n = some w ↔ k.value w = n) := by
  refine ⟨?_, ?_, fun k n w => IntKind.word?_eq_some_iff⟩
  · intro items
    rw [← Item.exists_writeAll_iff]
    constructor
    · intro h
      rcases h with ⟨data, hWrite⟩
      rcases
          Cursor.exists_passes
            (List.append_nil (Cursor.start data).remaining).symm
        with ⟨c', hPasses, hRest⟩
      exact
        ⟨data, c', hWrite,
          runAll_eq_ok_iff.mpr ⟨rfl, data, hWrite, hPasses⟩,
          hRest⟩
    · intro h
      rcases h with ⟨data, c', hWrite, _⟩
      exact ⟨data, hWrite⟩
  · intro data steps items c' h
    rcases runAll_eq_ok_iff.mp h with
      ⟨hSteps, bytes, hWrite, hPasses⟩
    refine ⟨hSteps, ?_⟩
    have hIndex := hPasses.index_eq
    have hData : data = bytes ++ c'.remaining :=
      hPasses.remaining_eq
    rw [hWrite, hIndex, hData]
    simp [Cursor.start]

/- Two fields of a person, a float that is no number, and more. -/
def sampleItems : List Item :=
  [
    .tag 1, .string "Ann", .tag 2,
    .number (.int .int32) (BitVec.ofInt 32 (-30)),
    .number (.float .float32) 0xFFC00001#32,
    .length 2, .byte 7, .bytes [8, 9]
  ]

/- A byte and a number, in front of one more byte. -/
theorem runAll_writeAll_sample :
    (∀ item ∈ sampleItems, item.Fits) ∧
    (∃ data c',
      Item.writeAll sampleItems = .ok data ∧
        runAll (sampleItems.map Item.step)
            (Cursor.start data) =
          (.ok (sampleItems.map some), c') ∧
        c'.remaining = []) ∧
    (∃ items c',
      runAll [.byte, .number (.int .int16)]
          (Cursor.start [5, 254, 255, 9]) =
        (.ok (items.map some), c') ∧
        Item.writeAll items = .ok [5, 254, 255]) := by
  have hFit : ∀ item ∈ sampleItems, item.Fits := by decide
  have hRead :
      runAll [.byte, .number (.int .int16)]
          (Cursor.start [5, 254, 255, 9]) =
        (.ok
          ([.byte 5, .number (.int .int16) 0xFFFE#16].map some),
          ⟨[5, 254, 255, 9], 3, by decide⟩) := rfl
  rcases runAll_writeAll with ⟨hReading, hWriting, _⟩
  exact
    ⟨hFit, (hReading sampleItems).mp hFit, _, _, hRead,
      (hWriting _ _ _ _ hRead).2⟩

end ReadStep

end TagWire
