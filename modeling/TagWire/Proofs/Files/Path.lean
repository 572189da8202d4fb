import TagWire.Files.Path
import Mathlib.Data.List.Basic

/-
  The parts of a path. Slashes only separate parts, and a name
  that is joined to a directory is the last part of the path.

  Main declarations:
    * `Path.IsName`
    * `Path.exists_split_join`
    * `Path.noSlash_of_fileName?`
-/

------------------------------------------------------------
-- Parts
------------------------------------------------------------

namespace TagWire

namespace Path

/- There is always a part, which may be empty. -/
theorem splitChars_ne_nil
    (cs : List Char) :
    splitChars cs ≠ [] := by
  cases cs with
  | nil => exact List.cons_ne_nil _ _
  | cons c rest =>
      unfold splitChars
      split
      · exact List.cons_ne_nil _ _
      · split <;> exact List.cons_ne_nil _ _

/- Any other character belongs to the first part. -/
theorem exists_splitChars_cons
    {c : Char}
    (hNe : c ≠ '/')
    (cs : List Char) :
    ∃ part parts,
      splitChars cs = part :: parts ∧
        splitChars (c :: cs) = (c :: part) :: parts := by
  rcases List.exists_cons_of_ne_nil (splitChars_ne_nil cs) with
    ⟨part, parts, hParts⟩
  refine ⟨part, parts, hParts, ?_⟩
  rw [splitChars, if_neg hNe, hParts]

/- Characters without a slash are one part. -/
theorem splitChars_of_noSlash
    {cs : List Char}
    (h : '/' ∉ cs) :
    splitChars cs = [cs] := by
  induction cs with
  | nil => rfl
  | cons c rest ih =>
      rw [List.mem_cons, not_or] at h
      rw [splitChars, if_neg (Ne.symm h.1), ih h.2]

/- A slash separates the parts before from those after. -/
theorem splitChars_append
    (front cs : List Char) :
    splitChars (front ++ '/' :: cs) =
      splitChars front ++ splitChars cs := by
  induction front with
  | nil => simp [splitChars]
  | cons c rest ih =>
      by_cases hSlash : c = '/'
      · rw [List.cons_append, splitChars, if_pos hSlash, ih,
          splitChars, if_pos hSlash, List.cons_append]
      · rcases exists_splitChars_cons hSlash rest with
          ⟨part, parts, hRest, hParts⟩
        rw [List.cons_append, splitChars, if_neg hSlash, ih,
          hRest, hParts]
        rfl

/- A part has no slash. -/
theorem noSlash_of_mem_splitChars
    {cs part : List Char}
    (h : part ∈ splitChars cs) :
    '/' ∉ part := by
  induction cs generalizing part with
  | nil =>
      rw [List.mem_singleton.mp h]
      exact List.not_mem_nil
  | cons c rest ih =>
      by_cases hSlash : c = '/'
      · rw [splitChars, if_pos hSlash] at h
        rcases List.mem_cons.mp h with rfl | h
        · exact List.not_mem_nil
        · exact ih h
      · rcases exists_splitChars_cons hSlash rest with
          ⟨first, parts, hRest, hParts⟩
        rw [hRest] at ih
        rw [hParts] at h
        rcases List.mem_cons.mp h with rfl | h
        · rw [List.mem_cons, not_or]
          exact ⟨Ne.symm hSlash, ih List.mem_cons_self⟩
        · exact ih (List.mem_cons_of_mem _ h)

/- The last name in a path has no slash. -/
theorem noSlash_of_fileName?
    {path name : String}
    (h : fileName? path = some name) :
    '/' ∉ name.toList := by
  have hLast : (components path).getLast? = some name := by
    unfold fileName? at h
    split at h
    · cases h
    · cases h
    · cases h
    · next hLast =>
        cases h
        exact hLast
  have hMem := List.mem_of_getLast? hLast
  unfold components at hMem
  split at hMem
  · cases hMem
  · next first rest hParts =>
      have hPart : name ∈ parts path := by
        rw [hParts]
        exact (List.filter_sublist.cons_cons first).mem hMem
      rcases List.mem_map.mp (List.mem_filter.mp hPart).1 with
        ⟨chars, hChars, rfl⟩
      rw [String.toList_ofList]
      exact noSlash_of_mem_splitChars hChars

end Path

end TagWire

------------------------------------------------------------
-- Names in a Directory
------------------------------------------------------------

namespace TagWire

namespace Path

/- A name that a file in a directory can have. -/
structure IsName
    (name : String) : Prop where
  noSlash : '/' ∉ name.toList
  notEmpty : name ≠ ""
  notHere : name ≠ "."
  notAbove : name ≠ ".."

/- A text with three letters at its end is a name. -/
theorem isName_append
    {stem ending : String}
    (hStem : '/' ∉ stem.toList)
    (hEnding : '/' ∉ ending.toList)
    (hLong : 2 < ending.length) :
    IsName (stem ++ ending) := by
  have hLength : 2 < (stem ++ ending).length := by
    rw [String.length_append]
    omega
  refine ⟨?_, ?_, ?_, ?_⟩
  · rw [String.toList_append, List.mem_append, not_or]
    exact ⟨hStem, hEnding⟩
  all_goals
    intro hSame
    rw [hSame] at hLength
    exact absurd hLength (by decide)

/- A name that is joined is the last part. -/
theorem exists_split_join
    {name : String}
    (h : IsName name)
    (directory : String) :
    ∃ front, split (join directory name) = front ++ [name] := by
  have hName :
      (splitChars name.toList).map String.ofList = [name] := by
    simp [splitChars_of_noSlash h.noSlash]
  have hSplit :
      ∀ (path front : String),
        path.toList = front.toList ++ '/' :: name.toList →
          ∃ parts, split path = parts ++ [name] := by
    intro path front hPath
    rw [split, hPath, splitChars_append, List.map_append, hName]
    exact ⟨_, rfl⟩
  unfold join
  split
  · exact ⟨[], hName⟩
  · next hLast =>
      apply hSplit _ (String.ofList directory.toList.dropLast)
      have hDirectory :
          directory.toList =
            directory.toList.dropLast ++ ['/'] :=
        (List.dropLast_append_getLast? _ hLast).symm
      rw [String.toList_append, hDirectory]
      simp
  · apply hSplit _ directory
    simp

end Path

end TagWire
