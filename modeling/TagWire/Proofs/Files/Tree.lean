import TagWire.Files.Tree
import TagWire.Proofs.Files.Path
import TagWire.Proofs.Keyed
import TagWire.Proofs.Outcome

/-
  What the actions on a tree leave as it was. A file that is
  written changes no other file, and no path that led
  somewhere leads elsewhere then. A directory that is made
  changes no file at all.

  Main declarations:
    * `FileTree.file?`
    * `FileTree.SameFiles`
    * `FileTree.SameFilesBut`
    * `FileTree.Wrote`
    * `FileTree.wrote_of_write`
    * `FileTree.sameFiles_of_createDirectory`
-/

------------------------------------------------------------
-- Nodes
------------------------------------------------------------

namespace TagWire

namespace FileTree

variable {t : FileTree}
variable {place place' : List String}
variable {node : FileNode}

/- What is put at a place below the top is there. -/
theorem node?_put_self
    (h : isAbove place = false) :
    (t.put place node).node? place = some node := by
  simp [node?, h, put]

/- At another place there is what there was. -/
theorem node?_put_of_ne
    (h : place' ≠ place) :
    (t.put place node).node? place' = t.node? place' := by
  have hLookup :
      (t.put place node).nodes.lookup place' =
        t.nodes.lookup place' := by
    show ((place, node) :: _).lookup place' = _
    rw [List.lookup_cons, beq_false_of_ne h]
    exact Keyed.lookup_filter (fun k => decide (k ≠ place))
      (decide_eq_true h) t.nodes
  unfold node?
  rw [hLookup]

/- Where no directory stands, the top lies above. -/
theorem isAbove_eq_false
    (h : t.node? place ≠ some .directory) :
    isAbove place = false := by
  rw [← Bool.not_eq_true]
  intro hAbove
  exact h (if_pos hAbove)

/- No directory stands where none is seen. -/
theorem isDirectory_eq_false_iff :
    t.isDirectory place = false ↔
      t.node? place ≠ some .directory := by
  rw [isDirectory, beq_eq_false_iff_ne]

end FileTree

end TagWire

------------------------------------------------------------
-- Files
------------------------------------------------------------

namespace TagWire

namespace FileTree

/- The content of the file that stands at a place. -/
def file?
    (t : FileTree)
    (place : List String) :
    Option (List UInt8) :=
  match t.node? place with
  | some (.file content) => some content
  | _ => none

/- Two trees hold the same files. -/
def SameFiles
    (t t' : FileTree) :
    Prop :=
  ∀ place, t'.file? place = t.file? place

/-
  Two trees hold the same files, apart from those to which
  some paths lead in the second tree.
-/
def SameFilesBut
    (paths : List String)
    (t t' : FileTree) :
    Prop :=
  ∀ place, (∀ path ∈ paths, t'.locate path ≠ .ok place) →
    t'.file? place = t.file? place

/- Every path that led somewhere leads to the same place. -/
def SamePlaces
    (t t' : FileTree) :
    Prop :=
  ∀ path place, t.locate path = .ok place →
    t'.locate path = .ok place

variable {t t' t'' : FileTree}
variable {place : List String}
variable {path : String}
variable {content : List UInt8}

theorem SameFiles.refl
    (t : FileTree) :
    SameFiles t t :=
  fun _ => rfl

theorem SameFiles.trans
    (h : SameFiles t t')
    (h' : SameFiles t' t'') :
    SameFiles t t'' :=
  fun place => (h' place).trans (h place)

theorem SameFiles.trans_but
    {paths : List String}
    (h : SameFiles t t')
    (h' : SameFilesBut paths t' t'') :
    SameFilesBut paths t t'' :=
  fun place hNe => (h' place hNe).trans (h place)

/- A node is a file with the content that is read. -/
theorem file?_eq_of_node?
    (h : t.node? place = some (.file content)) :
    t.file? place = some content := by
  rw [file?, h]

/- What is read is the content of the file at the place. -/
theorem read_eq_ok_iff :
    t.read path = .ok content ↔
      ∃ place, t.locate path = .ok place ∧
        t.file? place = some content := by
  unfold read
  rw [Outcome.bind_eq_ok_iff]
  refine exists_congr fun place => and_congr_right fun _ => ?_
  unfold file?
  cases t.node? place with
  | none => simp
  | some node => cases node <;> simp

end FileTree

end TagWire

------------------------------------------------------------
-- Written Files
------------------------------------------------------------

namespace TagWire

namespace FileTree

variable {t t' t'' : FileTree}
variable {place : List String}
variable {path : String}
variable {content : List UInt8}

/- Writing succeeds where the path leads to no directory. -/
theorem write_eq_ok_iff :
    t.write path content = .ok t' ↔
      ∃ place, t.locate path = .ok place ∧
        t.node? place ≠ some .directory ∧
          t' = t.put place (.file content) := by
  unfold write
  rw [Outcome.bind_eq_ok_iff]
  refine exists_congr fun place => and_congr_right fun _ => ?_
  rw [← isDirectory_eq_false_iff]
  cases t.isDirectory place with
  | true => simp
  | false => simp [eq_comm]

/- Only a directory can be entered. -/
theorem enter_eq_of_node?
    {next : List String}
    {part : String}
    (h : t.enter place part = .ok next)
    (hSame :
      t.node? place = some .directory →
        t'.node? place = some .directory) :
    t'.enter place part = .ok next := by
  unfold enter at h
  split at h
  · cases h
  · cases h
  · next hNode =>
      unfold enter
      rw [hSame hNode]
      exact h

/- While all directories stay, no path leads elsewhere. -/
theorem samePlaces_of_directories
    (hSame :
      ∀ place, t.node? place = some .directory →
        t'.node? place = some .directory) :
    SamePlaces t t' := by
  -- The rest of a path is followed from any place above.
  have hParts :
      ∀ (parts : List String) (from' place : List String),
        parts.foldlM t.enter from' = .ok place →
          parts.foldlM t'.enter from' = .ok place := by
    intro parts
    induction parts with
    | nil => exact fun _ _ h => h
    | cons part rest ih =>
        intro from' place h
        rw [List.foldlM_cons] at h ⊢
        rcases Outcome.bind_eq_ok_iff.mp h with
          ⟨next, hEnter, hRest⟩
        rw [enter_eq_of_node? hEnter (hSame from')]
        exact ih next place hRest
  intro path place h
  rcases Outcome.bind_eq_ok_iff.mp h with
    ⟨from', hStart, hFollow⟩
  unfold locate
  rw [hStart]
  exact hParts _ _ _ hFollow

/-
  What it makes of a tree that some files, each a path with a
  content, are written.
-/
structure Wrote
    (files : List (String × List UInt8))
    (t t' : FileTree) : Prop where
  reads : ∀ f ∈ files, t'.read f.1 = .ok f.2
  others : SameFilesBut (files.map Prod.fst) t t'
  places : SamePlaces t t'

theorem Wrote.nil
    (t : FileTree) :
    Wrote [] t t :=
  ⟨nofun, fun _ _ => rfl, fun _ _ h => h⟩

/- A file that is written is read back, and changes no other. -/
theorem wrote_of_write
    (h : t.write path content = .ok t') :
    Wrote [(path, content)] t t' := by
  rcases write_eq_ok_iff.mp h with
    ⟨place, hPlace, hNode, rfl⟩
  have hOther :
      ∀ place', place' ≠ place →
        (t.put place (.file content)).node? place' =
          t.node? place' :=
    fun _ hNe => node?_put_of_ne hNe
  have hPlaces :
      SamePlaces t (t.put place (.file content)) := by
    apply samePlaces_of_directories
    intro place' hDirectory
    rw [hOther place' fun hSame => hNode (hSame ▸ hDirectory)]
    exact hDirectory
  refine ⟨?_, ?_, hPlaces⟩
  · intro f hf
    rw [List.mem_singleton.mp hf]
    apply read_eq_ok_iff.mpr
    refine ⟨place, hPlaces _ _ hPlace, ?_⟩
    exact file?_eq_of_node?
      (node?_put_self (isAbove_eq_false hNode))
  · intro place' hNe
    unfold file?
    rw [hOther]
    intro hSame
    exact hNe path (List.mem_singleton.mpr rfl)
      (hSame ▸ hPlaces _ _ hPlace)

/- Files are kept while others are written. -/
theorem Wrote.append
    {files files' : List (String × List UInt8)}
    (h : Wrote files t t')
    (h' : Wrote files' t' t'')
    (hApart :
      ∀ f ∈ files, ∀ f' ∈ files', ∀ place,
        t''.locate f.1 = .ok place →
          t''.locate f'.1 ≠ .ok place) :
    Wrote (files ++ files') t t'' := by
  refine ⟨?_, ?_, ?_⟩
  · intro f hf
    rcases List.mem_append.mp hf with hf | hf
    · rcases read_eq_ok_iff.mp (h.reads f hf) with
        ⟨place, hPlace, hFile⟩
      have hPlace' := h'.places _ _ hPlace
      refine read_eq_ok_iff.mpr ⟨place, hPlace', ?_⟩
      rw [h'.others place, hFile]
      intro path hPath
      rcases List.mem_map.mp hPath with ⟨f', hf', rfl⟩
      exact hApart f hf f' hf' place hPlace'
    · exact h'.reads f hf
  · intro place hNe
    rw [List.map_append] at hNe
    rw [h'.others place, h.others place]
    · intro path hPath hPlace
      exact hNe path (List.mem_append_left _ hPath)
        (h'.places _ _ hPlace)
    · intro path hPath
      exact hNe path (List.mem_append_right _ hPath)
  · exact fun path place hPlace =>
      h'.places _ _ (h.places _ _ hPlace)

/- A directory that is made changes no file. -/
theorem sameFiles_of_createDirectory
    (h : t.createDirectory path = .ok t') :
    SameFiles t t' := by
  rcases Outcome.bind_eq_ok_iff.mp h with ⟨from', _, h⟩
  rcases Outcome.bind_eq_ok_iff.mp h with ⟨place, _, h⟩
  split at h
  · cases h
  · next hNone =>
      cases h
      intro place'
      unfold file?
      by_cases hSame : place' = place
      · have hBelow : isAbove place = false := by
          apply isAbove_eq_false (t := t)
          rw [hNone]
          exact nofun
        rw [hSame, hNone, node?_put_self hBelow]
      · rw [node?_put_of_ne hSame]

end FileTree

end TagWire

------------------------------------------------------------
-- Files in a Directory
------------------------------------------------------------

namespace TagWire

namespace FileTree

/- A path with a name at its end leads to a place with it. -/
theorem getLast?_of_locate_join
    {t : FileTree}
    {directory name : String}
    {place : List String}
    (hName : Path.IsName name)
    (h : t.locate (Path.join directory name) = .ok place) :
    place.getLast? = some name := by
  rcases Outcome.bind_eq_ok_iff.mp h with ⟨from', _, h⟩
  rcases Path.exists_split_join hName directory with
    ⟨front, hSplit⟩
  rw [hSplit, List.foldlM_append] at h
  rcases Outcome.bind_eq_ok_iff.mp h with ⟨above, _, h⟩
  rw [List.foldlM_cons] at h
  rcases Outcome.bind_eq_ok_iff.mp h with ⟨last, hEnter, h⟩
  cases h
  unfold enter at hEnter
  split at hEnter
  · cases hEnter
  · cases hEnter
  · rw [if_neg (not_or.mpr ⟨hName.notEmpty, hName.notHere⟩),
      if_neg hName.notAbove] at hEnter
    split at hEnter
    · cases hEnter
    · cases hEnter
      simp

end FileTree

end TagWire
