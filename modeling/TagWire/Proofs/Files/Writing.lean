import TagWire.Generate
import TagWire.Proofs.Files.Tree

/-
  What the parts of a run leave of a tree of files. Making
  directories leaves every file as it was. Writing some files
  leaves those before the first one that cannot be written.

  Main declarations:
    * `runOn`
    * `KeepsFiles`
    * `keepsFiles_createDirectories`
    * `WriteRun`
    * `writeRun_writeFiles`
-/

------------------------------------------------------------
-- Runs on a Tree
------------------------------------------------------------

namespace TagWire

/- The result of a run on a tree, with the tree after it. -/
def runOn
    {α : Type}
    (action : ExceptT Error (StateM FileTree) α)
    (t : FileTree) :
    Except Error α × FileTree :=
  (action.run.run t).run

variable {α β : Type}
variable {action : ExceptT Error (StateM FileTree) α}
variable {next : α → ExceptT Error (StateM FileTree) β}
variable {t t' : FileTree}

/- After a success the next action runs on what is left. -/
theorem runOn_bind_of_ok
    {a : α}
    (h : runOn action t = (.ok a, t')) :
    runOn (action >>= next) t = runOn (next a) t' := by
  have hRun : (action.run.run t) = (.ok a, t') := h
  show (StateT.run (ExceptT.run (action >>= next)) t).run = _
  rw [ExceptT.run_bind, StateT.run_bind, hRun]
  rfl

/- After an error nothing more is done. -/
theorem runOn_bind_of_error
    {e : Error}
    (h : runOn action t = (.error e, t')) :
    runOn (action >>= next) t = (.error e, t') := by
  have hRun : (action.run.run t) = (.error e, t') := h
  show (StateT.run (ExceptT.run (action >>= next)) t).run = _
  rw [ExceptT.run_bind, StateT.run_bind, hRun]
  rfl

/- Actions that only look at the tree give their results. -/
theorem runOn_bind_of_same
    {r : Except Error α}
    {s : α → Except Error β}
    (h : runOn action t = (r, t))
    (hNext : ∀ a, runOn (next a) t = (s a, t)) :
    runOn (action >>= next) t = (r >>= s, t) := by
  cases r with
  | error e => exact runOn_bind_of_error h
  | ok a => exact (runOn_bind_of_ok h).trans (hNext a)

end TagWire

------------------------------------------------------------
-- Making Directories
------------------------------------------------------------

namespace TagWire

/- An action that leaves every file as it was. -/
def KeepsFiles
    {α : Type}
    (action : StateM FileTree α) :
    Prop :=
  ∀ t : FileTree, t.SameFiles (action.run t).2

namespace KeepsFiles

variable {α β : Type}

theorem pure
    (a : α) :
    KeepsFiles (Pure.pure a) :=
  fun t => FileTree.SameFiles.refl t

theorem bind
    {action : StateM FileTree α}
    {next : α → StateM FileTree β}
    (h : KeepsFiles action)
    (hNext : ∀ a, KeepsFiles (next a)) :
    KeepsFiles (action >>= next) :=
  fun t => (h t).trans (hNext _ _)

end KeepsFiles

theorem keepsFiles_isDirectory
    (path : String) :
    KeepsFiles
      (FileStore.isDirectory path : StateM FileTree Bool) :=
  fun t => FileTree.SameFiles.refl t

theorem keepsFiles_createDirectory
    (path : String) :
    KeepsFiles
      (FileStore.createDirectory path :
        StateM FileTree (Except FileError Unit)) := by
  intro t
  simp only [FileStore.createDirectory, StateT.run_bind,
    StateT.run_get, pure_bind]
  cases hMade : t.createDirectory path with
  | error e => exact FileTree.SameFiles.refl t
  | ok t' => exact FileTree.sameFiles_of_createDirectory hMade

theorem keepsFiles_ensureDirectory
    (path : String) :
    KeepsFiles
      (ensureDirectory path :
        StateM FileTree (Except FileError Unit)) := by
  apply (keepsFiles_createDirectory path).bind
  intro r
  cases r with
  | ok _ => exact .pure _
  | error e =>
      exact (keepsFiles_isDirectory path).bind
        fun _ => .pure _

theorem keepsFiles_ensureBelow
    (path : String)
    (above : List String) :
    KeepsFiles
      (ensureBelow path above :
        StateM FileTree (Except FileError Unit)) := by
  induction above generalizing path with
  | nil => exact keepsFiles_ensureDirectory path
  | cons parent above ih =>
      apply (keepsFiles_ensureDirectory path).bind
      intro r
      split
      · apply (ih parent).bind
        intro r'
        cases r' with
        | ok _ => exact keepsFiles_ensureDirectory path
        | error e => exact .pure _
      · exact .pure _

/- Whatever directories are made, all files stay as they are. -/
theorem keepsFiles_createDirectories
    (path : String) :
    KeepsFiles
      (createDirectories path :
        StateM FileTree (Except FileError Unit)) := by
  unfold createDirectories
  split
  · exact .pure _
  · exact keepsFiles_ensureBelow path _

/- Making directories succeeds, or fails for a file's reason. -/
theorem runOn_makeDirectories
    (path : String)
    (t : FileTree) :
    ∃ (r : Except FileError Unit) (t' : FileTree),
      runOn (makeDirectories path) t =
          (r.mapError Error.file, t') ∧
        t.SameFiles t' :=
  ⟨_, _, rfl, keepsFiles_createDirectories path t⟩

end TagWire

------------------------------------------------------------
-- Writing Files
------------------------------------------------------------

namespace TagWire

namespace GeneratedFile

/- A file as it stands in a directory. -/
def inDirectory
    (directory : String)
    (file : GeneratedFile) :
    GeneratedFile :=
  ⟨Path.join directory file.path, file.content⟩

/- The path of a file, with the bytes to be written there. -/
def entry
    (file : GeneratedFile) :
    String × List UInt8 :=
  (file.path, Text.Utf8.encode file.content)

end GeneratedFile

open GeneratedFile

/-
  How writing files into a directory ends: all of them are
  written, or only those before one that cannot be written.
-/
inductive WriteRun (directory : String) :
    List GeneratedFile → FileTree →
      Except Error (List GeneratedFile) → FileTree → Prop where
| all
    (files : List GeneratedFile)
    {t t' : FileTree}
    (hWrote :
      FileTree.Wrote
        ((files.map (inDirectory directory)).map entry) t t') :
    WriteRun directory files t
      (.ok (files.map (inDirectory directory))) t'
| upTo
    (front back : List GeneratedFile)
    {file : GeneratedFile}
    {t t' : FileTree}
    {e : FileError}
    (hWrote :
      FileTree.Wrote
        ((front.map (inDirectory directory)).map entry) t t')
    (hFails :
      t'.write (Path.join directory file.path)
        (Text.Utf8.encode file.content) = .error e) :
    WriteRun directory (front ++ file :: back) t
      (.error (.file e)) t'

/- A text that can be written gives the next tree. -/
theorem runOn_writeText_of_ok
    {path text : String}
    {t t' : FileTree}
    (h : t.write path (Text.Utf8.encode text) = .ok t') :
    runOn (writeText path text) t = (.ok (), t') := by
  simp only [runOn, writeText, ExceptT.run_mk, FileStore.write,
    StateT.run_bind, StateT.run_get, pure_bind, h]
  rfl

/- A text that cannot be written leaves the tree as it was. -/
theorem runOn_writeText_of_error
    {path text : String}
    {t : FileTree}
    {e : FileError}
    (h : t.write path (Text.Utf8.encode text) = .error e) :
    runOn (writeText path text) t = (.error (.file e), t) := by
  simp only [runOn, writeText, ExceptT.run_mk, FileStore.write,
    StateT.run_bind, StateT.run_get, pure_bind, h]
  rfl

/- Files of different names stand at different places. -/
theorem locate_inDirectory_ne
    {directory : String}
    {file file' : GeneratedFile}
    {t : FileTree}
    {place : List String}
    (hName : Path.IsName file.path)
    (hName' : Path.IsName file'.path)
    (hNe : file.path ≠ file'.path)
    (h :
      t.locate (inDirectory directory file).path = .ok place) :
    t.locate (inDirectory directory file').path ≠ .ok place := by
  intro h'
  have hLast := FileTree.getLast?_of_locate_join hName h
  rw [FileTree.getLast?_of_locate_join hName' h'] at hLast
  exact hNe (Option.some.inj hLast).symm

/- A file stays while others of different names are written. -/
theorem wrote_cons
    {directory : String}
    {file : GeneratedFile}
    {files : List GeneratedFile}
    {t t₁ t' : FileTree}
    (hNames : ∀ f ∈ file :: files, Path.IsName f.path)
    (hNew : file.path ∉ files.map GeneratedFile.path)
    (hWrite :
      t.write (Path.join directory file.path)
        (Text.Utf8.encode file.content) = .ok t₁)
    (hWrote :
      FileTree.Wrote
        ((files.map (inDirectory directory)).map entry) t₁ t') :
    FileTree.Wrote
      (((file :: files).map (inDirectory directory)).map entry)
      t t' := by
  apply (FileTree.wrote_of_write hWrite).append hWrote
  intro f hf f' hf' place
  rw [List.mem_singleton.mp hf]
  simp only [List.map_map, List.mem_map] at hf'
  rcases hf' with ⟨file', hFile', rfl⟩
  apply locate_inDirectory_ne (hNames file List.mem_cons_self)
    (hNames file' (List.mem_cons_of_mem _ hFile'))
  intro hSame
  exact hNew (hSame ▸ List.mem_map_of_mem hFile')

/-
  Files of different names are written one after the other,
  until one cannot be written.
-/
theorem writeRun_writeFiles
    {files : List GeneratedFile}
    (directory : String)
    (hNames : ∀ f ∈ files, Path.IsName f.path)
    (hNodup : (files.map GeneratedFile.path).Nodup)
    (t : FileTree) :
    ∃ r t',
      runOn (writeFiles directory files) t = (r, t') ∧
        WriteRun directory files t r t' := by
  induction files generalizing t with
  | nil =>
      exact ⟨_, _, rfl, .all [] (.nil t)⟩
  | cons file rest ih =>
      rw [List.map_cons, List.nodup_cons] at hNodup
      cases hWrite :
          t.write (Path.join directory file.path)
            (Text.Utf8.encode file.content) with
      | error e =>
          exact ⟨_, _,
            runOn_bind_of_error (runOn_writeText_of_error hWrite),
            .upTo [] rest (.nil t) hWrite⟩
      | ok t₁ =>
          rcases ih (fun f hf =>
              hNames f (List.mem_cons_of_mem _ hf))
            hNodup.2 t₁ with ⟨r, t', hRest, hRun⟩
          have hFirst :
              runOn (writeFiles directory (file :: rest)) t =
                runOn
                  (do
                    let written ← writeFiles directory rest
                    return inDirectory directory file :: written)
                  t₁ :=
            runOn_bind_of_ok (runOn_writeText_of_ok hWrite)
          -- The first file stays however many of the rest follow.
          cases hRun with
          | all _ hWrote =>
              refine
                ⟨_, t', hFirst.trans (runOn_bind_of_ok hRest),
                  .all (file :: rest) ?_⟩
              exact wrote_cons hNames hNodup.1 hWrite hWrote
          | upTo front back hWrote hFails =>
              refine ⟨_, t',
                hFirst.trans (runOn_bind_of_error hRest),
                .upTo (file :: front) back ?_ hFails⟩
              apply wrote_cons _ _ hWrite hWrote
              · intro f hf
                apply hNames
                rcases List.mem_cons.mp hf with rfl | hf
                · exact List.mem_cons_self
                · exact List.mem_cons_of_mem _
                    (List.mem_append_left _ hf)
              · intro hMem
                apply hNodup.1
                rw [List.map_append]
                exact List.mem_append_left _ hMem

/- Of two files none is written, or the first one, or both. -/
theorem WriteRun.of_pair
    {directory : String}
    {file file' : GeneratedFile}
    {t t' : FileTree}
    {r : Except Error (List GeneratedFile)}
    (h : WriteRun directory [file, file'] t r t') :
    (∃ e : FileError, r = .error (.file e) ∧
      FileTree.Wrote [] t t' ∧
        t'.write (Path.join directory file.path)
          (Text.Utf8.encode file.content) = .error e) ∨
    (∃ e : FileError, r = .error (.file e) ∧
      FileTree.Wrote [entry (inDirectory directory file)] t t' ∧
        t'.write (Path.join directory file'.path)
          (Text.Utf8.encode file'.content) = .error e) ∨
    r = .ok
        [inDirectory directory file,
          inDirectory directory file'] ∧
      FileTree.Wrote
        [entry (inDirectory directory file),
          entry (inDirectory directory file')] t t' := by
  generalize hFiles : [file, file'] = files at h
  cases h with
  | all _ hWrote =>
      subst hFiles
      exact .inr (.inr ⟨rfl, hWrote⟩)
  | upTo front back hWrote hFails =>
      rcases front with _ | ⟨f, _ | ⟨f', front⟩⟩
      · cases hFiles
        exact .inl ⟨_, rfl, hWrote, hFails⟩
      · cases hFiles
        exact .inr (.inl ⟨_, rfl, hWrote, hFails⟩)
      · cases front <;> cases hFiles

end TagWire
