import CapFixture.Proofs.Files.Directories
import Mathlib.Data.List.Nodup

/-!
# Writing files one after the other

What is left of a tree after files were written below a directory, up to the first one that cannot
be written. The files before that one are all there, where of two files at one place the later one
counts. The one that fails, and those after it, leave nothing but new directories.

## Main definitions

- `OutputFile.lastContents?` — what files leave at a place
- `FileTree.Overlaid` — a tree with files written over it
-/

namespace CapFixture

namespace OutputFile

/-- Where a file goes that is written below a directory. -/
def pathBelow (root : Path) (file : OutputFile) : Path := root.join (.ofString file.path)

theorem writeBelow_eq_makeAbove {m : Type → Type} [Monad m] (access : FileAccess m) (root : Path)
    (file : OutputFile) :
    access.writeBelow root file =
      access.makeAbove (file.pathBelow root) >>= fun
        | .ok () => access.write (file.pathBelow root) file.contents
        | .error error => pure (.error error) := by
  unfold FileAccess.writeBelow FileAccess.makeAbove pathBelow
  dsimp only
  rcases (root.join (.ofString file.path)).parent? with _ | parent
  all_goals exact bind_congr fun answer => by rcases answer with error | _ <;> rfl

/-- The contents of the last of the files that goes to a place. -/
def lastContents? (cwd : List String) (root : Path) (files : List OutputFile)
    (place : List String) : Option String :=
  (files.reverse.find? fun file => (file.pathBelow root).place cwd == place).map contents

theorem lastContents?_append (cwd : List String) (root : Path) (files later : List OutputFile)
    (place : List String) : lastContents? cwd root (files ++ later) place =
      (lastContents? cwd root later place).or (lastContents? cwd root files place) := by
  rw [lastContents?, List.reverse_append, List.find?_append, Option.map_or]
  rfl

theorem lastContents?_singleton (cwd : List String) (root : Path) (file : OutputFile)
    (place : List String) : lastContents? cwd root [file] place =
      if (file.pathBelow root).place cwd = place then some file.contents else none := by
  by_cases h : (file.pathBelow root).place cwd = place <;> simp [lastContents?, h]

/-- Something is left where a file goes, by the file itself or by a later one. -/
theorem exists_lastContents? (cwd : List String) (root : Path) {file : OutputFile}
    {files : List OutputFile} (h : file ∈ files) :
    ∃ contents, lastContents? cwd root files ((file.pathBelow root).place cwd) =
      some contents := by
  rw [← Option.isSome_iff_exists, lastContents?, Option.isSome_map, List.find?_isSome]
  exact ⟨file, List.mem_reverse.mpr h, beq_self_eq_true _⟩

theorem exists_mem_of_lastContents? {cwd : List String} {root : Path} {files : List OutputFile}
    {place : List String} {contents : String}
    (h : lastContents? cwd root files place = some contents) :
    ∃ file ∈ files, (file.pathBelow root).place cwd = place ∧ file.contents = contents := by
  obtain ⟨file, hfile, hcontents⟩ := Option.map_eq_some_iff.mp h
  have hplace := List.find?_some hfile
  exact ⟨file, List.mem_reverse.mp (List.mem_of_find?_eq_some hfile), beq_iff_eq.mp hplace,
    hcontents⟩

/-- Where each file has a place of its own, it is the last one there. -/
theorem lastContents?_eq_of_nodup {cwd : List String} {root : Path} {file : OutputFile}
    {files : List OutputFile}
    (hplaces : (files.map fun file => (file.pathBelow root).place cwd).Nodup) (h : file ∈ files) :
    lastContents? cwd root files ((file.pathBelow root).place cwd) = some file.contents := by
  obtain ⟨contents, hcontents⟩ := exists_lastContents? cwd root h
  obtain ⟨other, hother, hplace, hsame⟩ := exists_mem_of_lastContents? hcontents
  rw [hcontents, ← hsame, List.inj_on_of_nodup_map hplaces hother h hplace]

end OutputFile

namespace FileTree

variable {t made after : FileTree} {cwd place : List String} {p root : Path} {file : OutputFile}
  {files later : List OutputFile} {contents : String} {error : FileError}

/-! ### Files over a tree -/

/-- A tree with files written over it below a root. -/
structure Overlaid (cwd : List String) (root : Path) (files : List OutputFile)
    (t after : FileTree) : Prop where
  /-- The files are the last ones written and, where none of them went, those from before. -/
  file?_eq : ∀ place, after.file? place =
    (OutputFile.lastContents? cwd root files place).or (t.file? place)
  /-- Every file that was written is read back, or a later one in its place. -/
  read_eq : ∀ file ∈ files, ∀ contents,
    OutputFile.lastContents? cwd root files ((file.pathBelow root).place cwd) = some contents →
      after.read cwd (file.pathBelow root) = .ok contents
  directory : ∀ place : List String, t[place]? = some .directory →
    after[place]? = some .directory
  /-- New directories are on the way to files. -/
  crossed : ∀ place : List String, after[place]? = some .directory →
    t[place]? = some .directory ∨
      t[place]? = none ∧ ∃ file ∈ files, (file.pathBelow root).Crosses cwd place

namespace Overlaid

theorem nil (cwd : List String) (root : Path) (t : FileTree) : Overlaid cwd root [] t t where
  file?_eq _ := rfl
  read_eq _ h := nomatch h
  directory _ h := h
  crossed _ h := .inl h

/-- One file, for which directories were made before it was written. -/
theorem single (hmade : Widens ((file.pathBelow root).Crosses cwd) t made)
    (h : made.write cwd (file.pathBelow root) file.contents = .ok after) :
    Overlaid cwd root [file] t after := by
  have hself := getElem?_write_self h
  refine ⟨fun place => ?_, ?_, fun place hplace => directory_write h (hmade.directory hplace),
    fun place hplace => ?_⟩
  · rw [OutputFile.lastContents?_singleton]
    split
    · next heq => rw [← heq, file?, hself, Option.some_or]
    · next heq => rw [file?, getElem?_write_ne h heq, ← file?, hmade.file?_eq, Option.none_or]
  · intro other hmem contents hcontents
    obtain rfl := List.mem_singleton.mp hmem
    rw [OutputFile.lastContents?_singleton, if_pos rfl] at hcontents
    rw [read_write h, Option.some.inj hcontents]
  · have heq : (file.pathBelow root).place cwd ≠ place := by
      rintro rfl
      cases hself.symm.trans hplace
    rw [getElem?_write_ne h heq] at hplace
    rcases hmade place with hsame | ⟨hnone, _, hcrosses⟩
    · exact .inl (hsame ▸ hplace)
    · exact .inr ⟨hnone, file, List.mem_singleton_self file, hcrosses⟩

/-- No entry is removed. -/
theorem free (h : Overlaid cwd root files t after) (hafter : after[place]? = none) :
    t[place]? = none := by
  rcases hplace : t[place]? with _ | _ | contents
  · rfl
  · cases hafter.symm.trans (h.directory place hplace)
  · have hfile := h.file?_eq place
    rw [file?, hafter, file?, hplace] at hfile
    cases hlast : OutputFile.lastContents? cwd root files place <;> simp [hlast] at hfile

/-- Where no file goes, nothing is written. -/
theorem file?_eq_of_ne (h : Overlaid cwd root files t after)
    (hplace : ∀ file ∈ files, (file.pathBelow root).place cwd ≠ place) :
    after.file? place = t.file? place := by
  rw [h.file?_eq]
  cases hlast : OutputFile.lastContents? cwd root files place with
  | none => exact Option.none_or
  | some contents =>
    obtain ⟨file, hfile, heq, _⟩ := OutputFile.exists_mem_of_lastContents? hlast
    exact absurd heq (hplace file hfile)

theorem append (h : Overlaid cwd root files t made) (h' : Overlaid cwd root later made after) :
    Overlaid cwd root (files ++ later) t after where
  file?_eq place := by
    rw [h'.file?_eq, h.file?_eq, OutputFile.lastContents?_append, Option.or_assoc]
  read_eq file hfile contents hcontents := by
    rw [OutputFile.lastContents?_append] at hcontents
    have hlast : after.file? ((file.pathBelow root).place cwd) = some contents := by
      rw [h'.file?_eq, h.file?_eq, ← Option.or_assoc, hcontents, Option.some_or]
    -- whatever is read there is the file of that place, so it is enough that something is read
    suffices hread : ∃ contents, after.read cwd (file.pathBelow root) = .ok contents by
      obtain ⟨found, hread⟩ := hread
      have hfound := (read_eq_ok_iff_file?.mp hread).2.2.2
      rw [hread, Option.some.inj (hfound.symm.trans hlast)]
    rcases List.mem_append.mp hfile with hfile | hfile
    · obtain ⟨found, hfound⟩ := OutputFile.exists_lastContents? cwd root hfile
      obtain ⟨hlocate, hslash, hne, _⟩ :=
        read_eq_ok_iff_file?.mp (h.read_eq file hfile found hfound)
      exact ⟨contents, read_eq_ok_iff_file?.mpr
        ⟨locate_mono (entry_mono h'.directory) hlocate, hslash, hne, hlast⟩⟩
    · obtain ⟨found, hfound⟩ := OutputFile.exists_lastContents? cwd root hfile
      exact ⟨found, h'.read_eq file hfile found hfound⟩
  directory place hplace := h'.directory place (h.directory place hplace)
  crossed place hplace := by
    rcases h'.crossed place hplace with hplace | ⟨hnone, file, hfile, hcrosses⟩
    · refine (h.crossed place hplace).imp_right fun ⟨hnone, file, hfile, hcrosses⟩ => ?_
      exact ⟨hnone, file, List.mem_append_left _ hfile, hcrosses⟩
    · exact .inr ⟨h.free hnone, file, List.mem_append_right _ hfile, hcrosses⟩

end Overlaid

/-! ### Runs -/

theorem access_write_error (h : t.write cwd p contents = .error error) :
    (accessFrom cwd).write p contents t = (.error error, t) := by
  simp only [accessFrom, update, h]

/-- A file is written after directories were made for it, or not written. -/
theorem writeBelow_cases (cwd : List String) (root : Path) (file : OutputFile) (t : FileTree) :
    (∃ after, (accessFrom cwd).writeBelow root file t = (.ok (), after) ∧
        Overlaid cwd root [file] t after) ∨
      ∃ error after, (accessFrom cwd).writeBelow root file t = (.error error, after) ∧
        Widens ((file.pathBelow root).Crosses cwd) t after := by
  have hwider := widens_makeAbove cwd (file.pathBelow root) t
  rw [OutputFile.writeBelow_eq_makeAbove]
  rcases hmade : (accessFrom cwd).makeAbove (file.pathBelow root) t with ⟨error | _, made⟩
  · rw [hmade] at hwider
    refine .inr ⟨error, made, ?_, hwider⟩
    simp only [bind, StateT.bind, hmade]
    rfl
  · rw [hmade] at hwider
    cases hwrite : made.write cwd (file.pathBelow root) file.contents with
    | ok after =>
      refine .inl ⟨after, ?_, .single hwider hwrite⟩
      simp only [bind, StateT.bind, hmade, access_write_ok hwrite]
    | error error =>
      refine .inr ⟨error, made, ?_, hwider⟩
      simp only [bind, StateT.bind, hmade, access_write_error hwrite]

theorem overlaid_of_writeBelow (h : (accessFrom cwd).writeBelow root file t = (.ok (), after)) :
    Overlaid cwd root [file] t after := by
  rcases writeBelow_cases cwd root file t with ⟨_, hdone, hover⟩ | ⟨_, _, hfails, _⟩
  · cases h.symm.trans hdone
    exact hover
  · cases h.symm.trans hfails

/-- Files are all written over the tree, or up to one that is not. -/
theorem writeAll_cases (cwd : List String) (root : Path) (files : List OutputFile)
    (t : FileTree) :
    (∃ after, (accessFrom cwd).writeAll root files t = (.ok (), after) ∧
        Overlaid cwd root files t after) ∨
      ∃ written failing later before error after, files = written ++ failing :: later ∧
        (accessFrom cwd).writeAll root written t = (.ok (), before) ∧
        Overlaid cwd root written t before ∧
        (accessFrom cwd).writeBelow root failing before = (.error error, after) ∧
        Widens ((failing.pathBelow root).Crosses cwd) before after ∧
        (accessFrom cwd).writeAll root files t = (.error error, after) := by
  induction files generalizing t with
  | nil => exact .inl ⟨t, rfl, .nil cwd root t⟩
  | cons file rest ih =>
    rcases writeBelow_cases cwd root file t with
      ⟨made, hfile, hover⟩ | ⟨error, after, hfile, hwider⟩
    · -- the rest is written over what the first file left
      rcases ih made with ⟨after, hrest, hafter⟩ |
        ⟨written, failing, later, before, error, after, rfl, hwritten, hbefore, hfailing, hwider,
          hrest⟩
      · refine .inl ⟨after, ?_, hover.append hafter⟩
        simp only [FileAccess.writeAll, bind, StateT.bind, hfile, hrest]
      · refine .inr ⟨file :: written, failing, later, before, error, after, rfl, ?_,
          hover.append hbefore, hfailing, hwider, ?_⟩
        · simp only [FileAccess.writeAll, bind, StateT.bind, hfile, hwritten]
        · simp only [FileAccess.writeAll, bind, StateT.bind, hfile, hrest]
    · refine .inr ⟨[], file, rest, t, error, after, rfl, rfl, .nil cwd root t, hfile, hwider, ?_⟩
      simp only [FileAccess.writeAll, bind, StateT.bind, hfile]
      rfl

theorem overlaid_of_writeAll (h : (accessFrom cwd).writeAll root files t = (.ok (), after)) :
    Overlaid cwd root files t after := by
  rcases writeAll_cases cwd root files t with ⟨_, hdone, hover⟩ |
    ⟨_, _, _, _, _, _, _, _, _, _, _, hstopped⟩
  · cases h.symm.trans hdone
    exact hover
  · cases h.symm.trans hstopped

/-- A run that fails has written the files before the one that fails, and they are read back, of
those at one place the last. Nothing is removed from the tree, and after the last file that was
written there is nothing new but directories on the way to the one that fails. -/
theorem writeAll_stops_at_failure
    (h : (accessFrom cwd).writeAll root files t = (.error error, after)) :
    ∃ written failing later before, files = written ++ failing :: later ∧
      (accessFrom cwd).writeAll root written t = (.ok (), before) ∧
      (accessFrom cwd).writeBelow root failing before = (.error error, after) ∧
      (∀ place, before.file? place =
        (OutputFile.lastContents? cwd root written place).or (t.file? place)) ∧
      (∀ file ∈ written, ∃ contents,
        OutputFile.lastContents? cwd root written ((file.pathBelow root).place cwd) =
          some contents ∧
        before.read cwd (file.pathBelow root) = .ok contents ∧
        after.read cwd (file.pathBelow root) = .ok contents) ∧
      (∀ place, after.file? place = before.file? place) ∧
      (∀ place : List String, t[place]? = some .directory → after[place]? = some .directory) ∧
      ∀ place : List String, after[place]? ≠ before[place]? →
        before[place]? = none ∧ after[place]? = some .directory ∧
          (failing.pathBelow root).Crosses cwd place := by
  rcases writeAll_cases cwd root files t with ⟨_, hdone, _⟩ |
    ⟨written, failing, later, before, error', after', hfiles, hwritten, hbefore, hfailing, hwider,
      hstopped⟩
  · cases h.symm.trans hdone
  · cases h.symm.trans hstopped
    refine ⟨written, failing, later, before, hfiles, hwritten, hfailing, hbefore.file?_eq, ?_,
      hwider.file?_eq, fun place hplace => hwider.directory (hbefore.directory place hplace),
      fun place hplace => (hwider place).resolve_left hplace⟩
    intro file hfile
    obtain ⟨contents, hcontents⟩ := OutputFile.exists_lastContents? cwd root hfile
    have hread := hbefore.read_eq file hfile contents hcontents
    exact ⟨contents, hcontents, hread, hwider.read_eq hread⟩

/-- A file cannot be written below another, which keeps what was written last. -/
theorem writeAll_stops_below_file :
    let files : List OutputFile := [⟨"a", "1"⟩, ⟨"a", "2"⟩, ⟨"a/b", "3"⟩, ⟨"c", "4"⟩]
    ∃ error after, access.writeAll .here files ∅ = (.error error, after) ∧
      ∃ written failing later, files = written ++ failing :: later ∧
        ∀ place, after.file? place = OutputFile.lastContents? [] .here written place := by
  intro files
  have hfails : (access.writeAll .here files ∅).1.isOk = false := by decide +kernel
  obtain ⟨error, herror⟩ := exists_eq_error_of_isOk hfails
  have h : access.writeAll .here files ∅ = (.error error, (access.writeAll .here files ∅).2) :=
    Prod.ext_iff.mpr ⟨herror, rfl⟩
  obtain ⟨written, failing, later, before, hfiles, _, _, hbefore, _, hafter, _⟩ :=
    writeAll_stops_at_failure h
  refine ⟨error, _, h, written, failing, later, hfiles, fun place => ?_⟩
  have hempty : file? ∅ place = none := by simp [file?]
  rw [hafter, hbefore, hempty, Option.or_none]

end FileTree

end CapFixture
