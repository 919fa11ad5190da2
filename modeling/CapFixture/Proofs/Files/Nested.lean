import CapFixture.Proofs.Files.Conflicts

/-!
# Writing files into directories of their own

Files that are written one after the other, each into a directory at the root, all arrive: a
directory that an earlier file needed is used again, and a file stays as it is while others are
written.

## Main definitions

- `FileTree.TwoLevels` — trees of directories with files in them
- `OutputFile.Nested` — files in a directory at the root
-/

namespace CapFixture

open FileTree

/-- Only directories stand at the root, and no directory stands in one of them. -/
structure FileTree.TwoLevels (t : FileTree) : Prop where
  top : ∀ (directory : String) (entry : Entry), t[[directory]]? = some entry →
    entry = Entry.directory
  nested : ∀ directory name : String, t[[directory, name]]? ≠ some Entry.directory

/-- A file in a directory at the root. -/
structure OutputFile.Nested (file : OutputFile) (directory name : String) : Prop where
  path_eq : Path.ofString file.path = .through [directory, name]
  isName_directory : IsName directory
  isName_name : IsName name

/-- What a tree has at the path of a file is the file. -/
def FileTree.Holds (t : FileTree) (file : OutputFile) : Prop :=
  t.read [] (.ofString file.path) = .ok file.contents

variable {t : FileTree} {file : OutputFile} {files : List OutputFile} {directory name : String}

theorem FileTree.twoLevels_empty : TwoLevels ∅ where
  top _ _ h := by simp at h
  nested _ _ h := by simp at h

theorem FileTree.TwoLevels.hasRoom (h : TwoLevels t) (directory name : String) :
    t.HasRoom [directory, name] where
  above front hne hfront hproper := by
    obtain rfl : front = [directory] := by
      have hsplit : front <+: [directory] ++ [name] := hfront
      rcases List.prefix_concat_iff.mp hsplit with heq | hshort
      · exact absurd heq hproper
      · simpa [List.prefix_cons_iff, hne] using hshort
    unfold file?
    split
    · next contents hfile => cases h.top directory _ hfile
    · rfl
  free := h.nested directory name

namespace OutputFile.Nested

theorem names_eq (h : file.Nested directory name) : file.names = [directory, name] :=
  congrArg Path.steps h.path_eq

theorem named (h : file.Nested directory name) : file.Named := by
  constructor
  · rw [h.names_eq, h.path_eq]
  · rw [h.names_eq]
    exact List.cons_ne_nil _ _
  · rw [h.names_eq]
    exact List.forall_mem_cons.mpr
      ⟨h.isName_directory, List.forall_mem_singleton.mpr h.isName_name⟩

end OutputFile.Nested

/-- Files in directories at the root that have different paths are all written, and then they are
all there. -/
theorem FileTree.exists_writeAll (ht : TwoLevels t)
    (hfiles : ∀ file ∈ files, ∃ directory name, file.Nested directory name)
    (hpaths : files.Pairwise fun a b => Path.ofString a.path ≠ Path.ofString b.path) :
    ∃ after, access.writeAll .here files t = (.ok (), after) ∧
      ∀ file ∈ files, after.Holds file := by
  have hroot : ∀ name ∈ ([] : List String), IsName name := nofun
  have hnamed : ∀ file ∈ files, file.Named := fun file hfile =>
    have ⟨_, _, hnested⟩ := hfiles file hfile
    hnested.named
  have hroom : ∀ file ∈ files, t.HasRoom file.names := by
    intro file hfile
    obtain ⟨directory, name, hnested⟩ := hfiles file hfile
    rw [hnested.names_eq]
    exact ht.hasRoom directory name
  -- all paths have two names, so none of them can stand above another one
  have hlength : ∀ file ∈ files, file.names.length = 2 := by
    intro file hfile
    obtain ⟨directory, name, hnested⟩ := hfiles file hfile
    rw [hnested.names_eq]
    rfl
  have hapart : ∀ f ∈ files, ∀ g ∈ files, f.names <+: g.names → f.names = g.names :=
    fun f hf g hg habove => habove.eq_of_length ((hlength f hf).trans (hlength g hg).symm)
  obtain ⟨after, hwritten, _⟩ := exists_writeAll_of_hasRoom hroot hnamed hroom hapart
  refine ⟨after, hwritten, fun file hfile => ?_⟩
  have hplaces : (files.map fun file => (file.pathBelow (.through [])).place []).Nodup := by
    refine List.pairwise_map.mpr (hpaths.imp_of_mem fun {a b} ha hb hne heq => hne ?_)
    rw [(hnamed a ha).place_eq hroot, (hnamed b hb).place_eq hroot, List.nil_append,
      List.nil_append] at heq
    rw [(hnamed a ha).path_eq, (hnamed b hb).path_eq, heq]
  have hread := (overlaid_of_writeAll hwritten).read_eq file hfile _
    (OutputFile.lastContents?_eq_of_nodup hplaces hfile)
  rwa [(hnamed file hfile).pathBelow_eq, List.nil_append, ← (hnamed file hfile).path_eq] at hread

end CapFixture
