import CapFixture.Proofs.Files.Names
import CapFixture.Proofs.Files.Writing

/-!
# Files in the way of one another

Files with names for paths are all written if no one of them stands where another one needs a
directory. What they leave in an empty place is one file for each path, with the contents that
were written last, and the directories above. Writing them again changes nothing.

## Main definitions

- `OutputFile.Named`, `OutputFile.Ordinary` — files whose paths are names, with slashes between them
- `FileTree.HasRoom` — a file can be written at a place
-/

namespace CapFixture

open FileTree

/-! ### Files with ordinary paths -/

namespace OutputFile

/-- The names on the way to the file, and its own. -/
def names (file : OutputFile) : List String := (Path.ofString file.path).steps

/-- The path of the file leads from name to name. -/
structure Named (file : OutputFile) : Prop where
  path_eq : Path.ofString file.path = .through file.names
  ne_nil : file.names ≠ []
  isName : ∀ name ∈ file.names, IsName name

/-- The path of the file is one or more names with slashes between them. No system takes the null
character in a name. -/
def Ordinary (file : OutputFile) : Prop :=
  ∃ names, names ≠ [] ∧
    (∀ name ∈ names, name ≠ "" ∧ '/' ∉ name.toList ∧ '\x00' ∉ name.toList ∧ IsName name) ∧
    file.path = "/".intercalate names

variable {file : OutputFile} {files : List OutputFile} {root place : List String}
  {contents : String}

theorem Ordinary.named (h : file.Ordinary) : file.Named := by
  obtain ⟨names, hne, hnames, hpath⟩ := h
  have hread : Path.ofString file.path = .through names := by
    rw [hpath]
    exact Path.ofString_intercalate hne fun name hname =>
      ⟨(hnames name hname).1, (hnames name hname).2.1⟩
  have hsame : file.names = names := congrArg Path.steps hread
  constructor
  · rw [hsame, hread]
  · rwa [hsame]
  · rw [hsame]
    exact fun name hname => (hnames name hname).2.2.2

namespace Named

theorem pathBelow_eq (h : file.Named) (root : List String) :
    file.pathBelow (.through root) = .through (root ++ file.names) := by
  rw [pathBelow, h.path_eq]
  exact Path.join_through h.ne_nil root

variable (hroot : ∀ name ∈ root, IsName name)

include hroot

theorem isName_of_mem (h : file.Named) : ∀ name ∈ root ++ file.names, IsName name :=
  List.forall_mem_append.mpr ⟨hroot, h.isName⟩

theorem place_eq (h : file.Named) :
    (file.pathBelow (.through root)).place [] = root ++ file.names := by
  rw [h.pathBelow_eq, Path.place_through (h.isName_of_mem hroot)]

theorem crosses_iff (h : file.Named) :
    (file.pathBelow (.through root)).Crosses [] place ↔
      place <+: root ++ file.names ∧ place ≠ root ++ file.names := by
  rw [h.pathBelow_eq, Path.crosses_through_iff (h.isName_of_mem hroot)]

end Named

/-- The last file that goes to a place is the one after which no other one does. -/
theorem lastContents?_eq_some_iff {cwd : List String} {root : Path} :
    lastContents? cwd root files place = some contents ↔
      ∃ before file later, files = before ++ file :: later ∧
        (file.pathBelow root).place cwd = place ∧ file.contents = contents ∧
        ∀ other ∈ later, (other.pathBelow root).place cwd ≠ place := by
  simp only [lastContents?, Option.map_eq_some_iff, List.find?_eq_some_iff_append, beq_iff_eq,
    Bool.not_eq_true', beq_eq_false_iff_ne]
  constructor
  · rintro ⟨file, ⟨hplace, later, before, hfiles, hlater⟩, hcontents⟩
    refine ⟨before.reverse, file, later.reverse, ?_, hplace, hcontents, by simpa using hlater⟩
    rw [← files.reverse_reverse, hfiles]
    simp
  · rintro ⟨before, file, later, rfl, hplace, hcontents, hlater⟩
    exact ⟨file, ⟨hplace, later.reverse, before.reverse, by simp, by simpa using hlater⟩, hcontents⟩

theorem lastContents?_through_iff (hroot : ∀ name ∈ root, IsName name)
    (hfiles : ∀ file ∈ files, file.Named) :
    lastContents? [] (.through root) files place = some contents ↔
      ∃ before file later, files = before ++ file :: later ∧ root ++ file.names = place ∧
        file.contents = contents ∧ ∀ other ∈ later, other.names ≠ file.names := by
  rw [lastContents?_eq_some_iff]
  refine exists_congr fun before => exists_congr fun file => exists_congr fun later =>
    and_congr_right fun hsplit => ?_
  rw [hsplit, List.forall_mem_append, List.forall_mem_cons] at hfiles
  obtain ⟨_, hfile, hlater⟩ := hfiles
  rw [hfile.place_eq hroot]
  refine and_congr_right fun hplace => and_congr_right fun _ => forall₂_congr fun other hother => ?_
  rw [(hlater other hother).place_eq hroot, ← hplace, ne_eq, List.append_cancel_left_eq]

end OutputFile

namespace FileTree

variable {t after again : FileTree} {root place : List String} {file other : OutputFile}
  {files : List OutputFile}

/-! ### Files and directories of a tree -/

theorem file?_eq_some_iff {contents : String} :
    t.file? place = some contents ↔ t[place]? = some (.file contents) := by
  unfold file?
  split
  · next found hfound => simp [hfound]
  · next hother => simpa using hother contents

/-- Trees with the same files and the same directories are equal. -/
theorem eq_of_file?_of_directory (hfile : ∀ place, t.file? place = after.file? place)
    (hdirectory : ∀ place : List String,
      t[place]? = some .directory ↔ after[place]? = some .directory) : t = after := by
  refine Std.ExtTreeMap.ext_getElem? fun place => ?_
  have hsame := hfile place
  have hboth := hdirectory place
  unfold file? at hsame
  rcases ht : t[place]? with _ | _ | contents
  · rcases ha : after[place]? with _ | _ | contents
    · rfl
    · cases ht.symm.trans (hboth.mpr ha)
    · simp [ht, ha] at hsame
  · exact (hboth.mp ht).symm
  · rcases ha : after[place]? with _ | _ | contents'
    · simp [ht, ha] at hsame
    · cases ht.symm.trans (hboth.mpr ha)
    · simpa [ht, ha] using hsame

/-! ### Room for files -/

/-- A file can be written at the place: no file stands above it, and no directory in its stead. -/
structure HasRoom (t : FileTree) (place : List String) : Prop where
  above : ∀ front, front ≠ [] → front <+: place → front ≠ place → t.file? front = none
  free : t[place]? ≠ some .directory

theorem HasRoom.clear {front : List String} {last : String} (h : t.HasRoom (front ++ [last])) :
    t.Clear front := by
  intro place hne hplace
  refine h.above place hne (hplace.trans (List.prefix_append _ _)) ?_
  rintro rfl
  exact concat_not_prefix_self front last hplace

variable (hroot : ∀ name ∈ root, IsName name)

include hroot

/-- Where there is room, a file is written with all directories above it. -/
theorem exists_writeBelow_of_hasRoom (hfile : file.Named)
    (hroom : t.HasRoom (root ++ file.names)) :
    ∃ after, access.writeBelow (.through root) file t = (.ok (), after) ∧
      after[([] : List String)]? = t[([] : List String)]? := by
  have hnames := hfile.isName_of_mem hroot
  have hpath := hfile.pathBelow_eq root
  rcases List.eq_nil_or_concat' (root ++ file.names) with hnil | ⟨front, last, hlast⟩
  · exact absurd (List.append_eq_nil_iff.mp hnil).2 hfile.ne_nil
  rw [hlast] at hnames hpath hroom
  have hfront : ∀ name ∈ front, IsName name := fun name hname =>
    hnames name (List.mem_append_left _ hname)
  obtain ⟨made, hmade, hopen, hkept⟩ := exists_makeDirectories hfront hroom.clear
  have hfree : made[front ++ [last]]? ≠ some Entry.directory := by
    have hwider := widens_makeDirectories [] (.through front) t
    rw [hmade] at hwider
    rcases hwider (front ++ [last]) with hsame | ⟨_, _, hreached⟩
    · rw [hsame]
      exact hroom.free
    · rw [Path.reaches_through_iff hfront] at hreached
      exact absurd hreached (concat_not_prefix_self front last)
  have hwrite := write_of_open hopen hnames hfree file.contents
  refine ⟨made.insert (front ++ [last]) (.file file.contents), ?_, ?_⟩
  · rw [OutputFile.writeBelow_eq_makeAbove, hpath]
    simp only [FileAccess.makeAbove, Path.parent?_through hnames, bind, StateT.bind, hmade]
    exact access_write_ok hwrite
  · rw [getElem?_insert_ne (List.concat_ne_nil last front), hkept]

/-- A file leaves room for another one if neither stands above the other. -/
theorem Overlaid.hasRoom (h : Overlaid [] (.through root) [file] t after) (hfile : file.Named)
    (hroom : t.HasRoom (root ++ other.names))
    (hbelow : file.names <+: other.names → file.names = other.names)
    (habove : other.names <+: file.names → other.names = file.names) :
    after.HasRoom (root ++ other.names) where
  above front hnil hfront hne := by
    rw [h.file?_eq, hroom.above front hnil hfront hne, Option.or_none,
      OutputFile.lastContents?_singleton, hfile.place_eq hroot, if_neg]
    rintro rfl
    exact hne (congrArg _ (hbelow ((List.prefix_append_right_inj root).mp hfront)))
  free hdirectory := by
    rcases h.crossed _ hdirectory with hbefore | ⟨_, crossing, hmem, hcrosses⟩
    · exact hroom.free hbefore
    · rw [List.mem_singleton.mp hmem, hfile.crosses_iff hroot] at hcrosses
      exact hcrosses.2 (congrArg _ (habove ((List.prefix_append_right_inj root).mp hcrosses.1)))

/-- Files that do not stand above one another are all written where there is room for each. -/
theorem exists_writeAll_of_hasRoom (hfiles : ∀ file ∈ files, file.Named)
    (hroom : ∀ file ∈ files, t.HasRoom (root ++ file.names))
    (hapart : ∀ f ∈ files, ∀ g ∈ files, f.names <+: g.names → f.names = g.names) :
    ∃ after, access.writeAll (.through root) files t = (.ok (), after) ∧
      after[([] : List String)]? = t[([] : List String)]? := by
  induction files generalizing t with
  | nil => exact ⟨t, rfl, rfl⟩
  | cons file rest ih =>
    obtain ⟨hfile, hrest⟩ := List.forall_mem_cons.mp hfiles
    obtain ⟨hhere, hlater⟩ := List.forall_mem_cons.mp hroom
    obtain ⟨made, hmade, hkept⟩ := exists_writeBelow_of_hasRoom hroot hfile hhere
    have hover := overlaid_of_writeBelow hmade
    obtain ⟨after, hafter, hkeptRest⟩ := ih hrest (fun other hother =>
      hover.hasRoom hroot hfile (hlater other hother)
        (hapart file List.mem_cons_self other (List.mem_cons_of_mem _ hother))
        (hapart other (List.mem_cons_of_mem _ hother) file List.mem_cons_self))
      (fun f hf g hg => hapart f (List.mem_cons_of_mem _ hf) g (List.mem_cons_of_mem _ hg))
    refine ⟨after, ?_, hkeptRest.trans hkept⟩
    simp only [FileAccess.writeAll, bind, StateT.bind, hmade, hafter]

/-! ### What is left -/

/-- Directories stand above every file that was written. -/
theorem Overlaid.directory_above (h : Overlaid [] (.through root) files t after)
    (hfile : file ∈ files) (hnamed : file.Named) (hne : place ≠ [])
    (hplace : place <+: root ++ file.names) (hproper : place ≠ root ++ file.names) :
    after[place]? = some .directory := by
  obtain ⟨contents, hcontents⟩ := OutputFile.exists_lastContents? [] (.through root) hfile
  have hread := h.read_eq file hfile contents hcontents
  rw [hnamed.pathBelow_eq] at hread
  obtain ⟨_, hwalk⟩ := locate_eq_ok_iff.mp (read_eq_ok_iff_file?.mp hread).1
  rw [← entry_eq_getElem? hne]
  exact entry_of_walk (hnamed.isName_of_mem hroot) hwalk hplace hproper

/-- In an empty tree, what stands above files that were written are directories, and there are no
others. -/
theorem Overlaid.directory_iff (h : Overlaid [] (.through root) files ∅ after)
    (hfiles : ∀ file ∈ files, file.Named) (hkept : after[([] : List String)]? = none) :
    after[place]? = some .directory ↔
      place ≠ [] ∧ ∃ file ∈ files, place <+: root ++ file.names ∧ place ≠ root ++ file.names := by
  constructor
  · intro hdirectory
    refine ⟨?_, ?_⟩
    · rintro rfl
      cases hkept.symm.trans hdirectory
    · rcases h.crossed place hdirectory with hbefore | ⟨_, file, hfile, hcrosses⟩
      · simp at hbefore
      · exact ⟨file, hfile, ((hfiles file hfile).crosses_iff hroot).mp hcrosses⟩
  · rintro ⟨hne, file, hfile, hplace, hproper⟩
    exact h.directory_above hroot hfile (hfiles file hfile) hne hplace hproper

/-- A file stands where one was written. -/
theorem Overlaid.ne_directory (h : Overlaid [] (.through root) files t after) (hfile : file ∈ files)
    (hnamed : file.Named) : after[root ++ file.names]? ≠ some .directory := by
  intro hdirectory
  obtain ⟨contents, hcontents⟩ := OutputFile.exists_lastContents? [] (.through root) hfile
  have hthere := h.file?_eq (root ++ file.names)
  rw [hnamed.place_eq hroot] at hcontents
  rw [hcontents, file?, hdirectory] at hthere
  cases hthere

/-- What was written is a file at the end and has no file above it, so it can be written again. -/
theorem Overlaid.hasRoom_again (h : Overlaid [] (.through root) files t after)
    (hfile : file ∈ files) (hnamed : file.Named) : after.HasRoom (root ++ file.names) where
  above front hne hfront hproper := by
    rw [file?, h.directory_above hroot hfile hnamed hne hfront hproper]
  free := h.ne_directory hroot hfile hnamed

/-- No file that was written stands above another one. -/
theorem Overlaid.eq_of_above (h : Overlaid [] (.through root) files t after)
    (hfile : file ∈ files) (hother : other ∈ files) (hnamed : file.Named)
    (hnamed' : other.Named) (habove : file.names <+: other.names) :
    file.names = other.names := by
  by_contra hne
  have hplace := (List.prefix_append_right_inj root).mpr habove
  exact h.ne_directory hroot hfile hnamed (h.directory_above hroot hother hnamed'
    (List.append_ne_nil_of_right_ne_nil root hnamed.ne_nil) hplace
    fun heq => hne (List.append_cancel_left heq))

/-- Writing the same files over themselves changes nothing. -/
theorem Overlaid.eq_again (h : Overlaid [] (.through root) files ∅ after)
    (hfiles : ∀ file ∈ files, file.Named) (hkept : after[([] : List String)]? = none)
    (hagain : Overlaid [] (.through root) files after again)
    (hkeptAgain : again[([] : List String)]? = after[([] : List String)]?) : again = after := by
  refine eq_of_file?_of_directory (fun place => ?_) fun place => ⟨fun hdirectory => ?_,
    hagain.directory place⟩
  · have hempty : file? ∅ place = none := by simp [file?]
    rw [hagain.file?_eq, h.file?_eq, hempty, Option.or_none, Option.or_self]
  · rcases hagain.crossed place hdirectory with hbefore | ⟨hnone, file, hfile, hcrosses⟩
    · exact hbefore
    · -- what stands above a file is a directory already
      rw [(hfiles file hfile).crosses_iff hroot] at hcrosses
      refine (h.directory_iff hroot hfiles hkept).mpr ⟨?_, file, hfile, hcrosses⟩
      rintro rfl
      cases (hkeptAgain.trans hkept).symm.trans hdirectory

end FileTree

/-- Files with ordinary paths are written into an empty tree, in or below a directory that is not
there yet. They are all written exactly if none of them would stand above another one. Then there
is one file for each path, with the contents of the last one that has it, and there are the
directories above these files, and nothing else. Writing the same files again succeeds and leaves
the tree as it is. -/
theorem FileTree.writeAll_succeeds_iff {root : List String} {files : List OutputFile}
    (hroot : ∀ name ∈ root, IsName name) (hfiles : ∀ file ∈ files, file.Ordinary) :
    ((access.writeAll (.through root) files ∅).1 = .ok () ↔
      ∀ f ∈ files, ∀ g ∈ files, f.names <+: g.names → f.names = g.names) ∧
    ∀ after, access.writeAll (.through root) files ∅ = (.ok (), after) →
      (∀ (place : List String) (contents : String), after[place]? = some (.file contents) ↔
        ∃ before file later, files = before ++ file :: later ∧ root ++ file.names = place ∧
          file.contents = contents ∧ ∀ other ∈ later, other.names ≠ file.names) ∧
      (∀ place : List String, after[place]? = some .directory ↔
        place ≠ [] ∧ ∃ file ∈ files, place <+: root ++ file.names ∧
          place ≠ root ++ file.names) ∧
      access.writeAll (.through root) files after = (.ok (), after) := by
  have hnamed : ∀ file ∈ files, file.Named := fun file hfile => (hfiles file hfile).named
  have hroom : ∀ file ∈ files, HasRoom ∅ (root ++ file.names) := fun file _ =>
    ⟨fun front _ _ _ => by simp [file?], by simp⟩
  have hsucceeds : (access.writeAll (.through root) files ∅).1 = .ok () →
      ∀ f ∈ files, ∀ g ∈ files, f.names <+: g.names → f.names = g.names := by
    intro hok f hf g hg
    have hover := overlaid_of_writeAll (Prod.ext hok rfl)
    exact hover.eq_of_above hroot hf hg (hnamed f hf) (hnamed g hg)
  refine ⟨⟨hsucceeds, fun hapart => ?_⟩, fun after hafter => ?_⟩
  · obtain ⟨after, hafter, _⟩ := exists_writeAll_of_hasRoom hroot hnamed hroom hapart
    rw [hafter]
  · have hover := overlaid_of_writeAll hafter
    have hapart := hsucceeds (by rw [hafter])
    obtain ⟨after', hafter', hkept⟩ := exists_writeAll_of_hasRoom hroot hnamed hroom hapart
    obtain rfl : after = after' := congrArg Prod.snd (hafter.symm.trans hafter')
    have hkept : after[([] : List String)]? = none := by simpa using hkept
    refine ⟨fun place contents => ?_, fun place => hover.directory_iff hroot hnamed hkept, ?_⟩
    · have hempty : file? ∅ place = none := by simp [file?]
      rw [← file?_eq_some_iff, hover.file?_eq, hempty, Option.or_none,
        OutputFile.lastContents?_through_iff hroot hnamed]
    · obtain ⟨again, hagain, hkeptAgain⟩ := exists_writeAll_of_hasRoom hroot hnamed
        (fun file hfile => hover.hasRoom_again hroot hfile (hnamed file hfile)) hapart
      have hoverAgain := overlaid_of_writeAll hagain
      rw [hagain, hover.eq_again hroot hnamed hkept hoverAgain hkeptAgain]

/-- The second file takes the place of the first one, and the last one needs a directory that is
there already. -/
theorem FileTree.writeAll_new_directory_succeeds :
    let files : List OutputFile := [⟨"a/b/t.c", "1"⟩, ⟨"a/b/t.c", "2"⟩, ⟨"a/manifest", "3"⟩]
    ∃ after, access.writeAll (.through ["out"]) files ∅ = (.ok (), after) ∧
      after[["out", "a", "b", "t.c"]]? = some (.file "2") ∧
      after[["out", "a"]]? = some .directory ∧ after[["out", "b"]]? ≠ some .directory ∧
      access.writeAll (.through ["out"]) files after = (.ok (), after) := by
  intro files
  have hroot : ∀ name ∈ ["out"], IsName name := by decide
  have hfiles : ∀ file ∈ files, file.Ordinary := by
    simp only [files, List.forall_mem_cons, List.not_mem_nil, IsEmpty.forall_iff, implies_true,
      and_true]
    exact ⟨⟨["a", "b", "t.c"], by decide +kernel⟩, ⟨["a", "b", "t.c"], by decide +kernel⟩,
      ⟨["a", "manifest"], by decide +kernel⟩⟩
  have hapart : ∀ f ∈ files, ∀ g ∈ files, f.names <+: g.names → f.names = g.names := by
    decide +kernel
  obtain ⟨hsucceeds, hleaves⟩ := writeAll_succeeds_iff hroot hfiles
  have hafter : access.writeAll (.through ["out"]) files ∅ =
      (.ok (), (access.writeAll (.through ["out"]) files ∅).2) :=
    Prod.ext (hsucceeds.mpr hapart) rfl
  obtain ⟨hfile, hdirectory, hagain⟩ := hleaves _ hafter
  have hother : ∀ file ∈ files, ¬ ["out", "b"] <+: ["out"] ++ file.names := by decide +kernel
  refine ⟨_, hafter, ?_, ?_, ?_, hagain⟩
  · exact (hfile _ _).mpr ⟨[⟨"a/b/t.c", "1"⟩], ⟨"a/b/t.c", "2"⟩, [⟨"a/manifest", "3"⟩], rfl,
      by decide +kernel, rfl, by decide +kernel⟩
  · exact (hdirectory _).mpr ⟨by decide, ⟨"a/manifest", "3"⟩, by decide, by decide +kernel⟩
  · intro hthere
    obtain ⟨_, file, hmem, hplace, _⟩ := (hdirectory _).mp hthere
    exact hother file hmem hplace

end CapFixture
