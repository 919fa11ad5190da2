import CapFixture.Proofs.Files.Nested
import CapFixture.Proofs.TestSuite.Labels

/-!
# The files of a test suite

Every test has a directory of its own with two files in it, and so no file is in the way of
another, neither as a path nor when they are written.

## Main definitions

- `TestCase.fileNames` — the names of the two files
-/

namespace CapFixture

open TestProgram

namespace TestCase

/-- The names of the two files of a test. -/
def fileNames (test : TestCase) : List String := [test.name ++ ".c", "manifest"]

variable {test other : TestCase} {label : TestLabel} {file : OutputFile}

theorem map_path_files (test : TestCase) :
    test.files.map OutputFile.path =
      test.fileNames.map fun name => "/".intercalate [test.name, name] := by
  have hpath : ∀ name, test.name ++ "/" ++ name = "/".intercalate [test.name, name] := by
    intro name
    apply String.toList_injective
    simp
  have hsource := hpath (test.name ++ ".c")
  rw [← String.append_assoc] at hsource
  have hmanifest : test.name ++ "/manifest" = test.name ++ "/" ++ "manifest" := by
    rw [String.append_assoc]
    rfl
  exact congrArg₂ (fun a b => [a, b]) hsource (hmanifest.trans (hpath "manifest"))

theorem head?_source (hname : test.name = label.name) :
    (test.name ++ ".c").toList.head? = some 'c' := by
  simp [hname, label.head?_name]

theorem nodup_fileNames (hname : test.name = label.name) : test.fileNames.Nodup := by
  have hne : test.name ++ ".c" ≠ "manifest" := by
    intro h
    have hhead := head?_source hname
    rw [h] at hhead
    simp at hhead
  simpa [fileNames] using hne

/-- A name that starts with a letter is no step that stays or goes up. -/
theorem ne_dots_of_head? {name : String} {c : Char} (h : name.toList.head? = some c)
    (hc : c ≠ '.') : name ≠ "" ∧ name ≠ "." ∧ name ≠ ".." := by
  refine ⟨?_, ?_, ?_⟩
  all_goals
    rintro rfl
    simp at h
  all_goals exact hc h.symm

/-- The directory of a test and the files in it have names. -/
theorem ne_dots_of_mem {name : String} (hname : test.name = label.name)
    (h : name ∈ test.name :: test.fileNames) :
    '/' ∉ name.toList ∧ name ≠ "" ∧ name ≠ "." ∧ name ≠ ".." := by
  have hslash : '/' ∉ test.name.toList := hname ▸ label.slash_not_mem_name
  have hhead : test.name.toList.head? = some 'c' := hname ▸ label.head?_name
  simp only [fileNames, List.mem_cons, List.not_mem_nil, or_false] at h
  rcases h with rfl | rfl | rfl
  · exact ⟨hslash, ne_dots_of_head? hhead (by decide)⟩
  · exact ⟨by simp [hslash], ne_dots_of_head? (head?_source hname) (by decide)⟩
  · decide

/-- The files of a test are the two in the directory of its name. -/
theorem map_ofString_files (hname : test.name = label.name) :
    (test.files.map OutputFile.path).map Path.ofString =
      test.fileNames.map fun name => Path.through [test.name, name] := by
  rw [map_path_files, List.map_map]
  refine List.map_congr_left fun name hmem => Path.ofString_intercalate (by simp) ?_
  intro step hstep
  have hstep : step ∈ test.name :: test.fileNames := by
    rcases List.mem_cons.mp hstep with rfl | hstep
    · exact List.mem_cons_self ..
    · obtain rfl := List.mem_singleton.mp hstep
      exact List.mem_cons_of_mem _ hmem
  obtain ⟨hslash, hne, _⟩ := ne_dots_of_mem hname hstep
  exact ⟨hne, hslash⟩

theorem exists_ofString_eq (hname : test.name = label.name) (hfile : file ∈ test.files) :
    ∃ name ∈ test.fileNames, Path.ofString file.path = .through [test.name, name] := by
  have hpath := List.mem_map_of_mem (f := Path.ofString)
    (List.mem_map_of_mem (f := OutputFile.path) hfile)
  rw [map_ofString_files hname] at hpath
  obtain ⟨name, hmem, hpath⟩ := List.mem_map.mp hpath
  exact ⟨name, hmem, hpath.symm⟩

/-- No file of a test has a path with a step that stays or goes up. -/
theorem exists_through (hname : test.name = label.name) (hfile : file ∈ test.files) :
    ∃ steps, Path.ofString file.path = .through steps ∧
      ∀ step ∈ steps, FileTree.isDots step = false := by
  obtain ⟨name, hmem, hpath⟩ := exists_ofString_eq hname hfile
  refine ⟨_, hpath, List.forall_mem_cons.mpr ⟨?_, List.forall_mem_singleton.mpr ?_⟩⟩
  · obtain ⟨_, _, hhere, habove⟩ := ne_dots_of_mem hname (List.mem_cons_self ..)
    simp [FileTree.isDots, hhere, habove]
  · obtain ⟨_, _, hhere, habove⟩ := ne_dots_of_mem hname (List.mem_cons_of_mem _ hmem)
    simp [FileTree.isDots, hhere, habove]

/-- A file of a test can be written if its name is not too long. -/
theorem exists_nested (hname : test.name = label.name) (hfile : file ∈ test.files)
    (hshort : (test.name ++ ".c").utf8ByteSize ≤ FileTree.maxNameBytes) :
    ∃ directory name, file.Nested directory name := by
  obtain ⟨name, hmem, hpath⟩ := exists_ofString_eq hname hfile
  have hsize : ∀ step ∈ test.name :: test.fileNames,
      step.utf8ByteSize ≤ FileTree.maxNameBytes := by
    intro step hstep
    simp only [fileNames, List.mem_cons, List.not_mem_nil, or_false] at hstep
    rcases hstep with rfl | rfl | rfl
    · rw [String.utf8ByteSize_append] at hshort
      exact Nat.le_of_add_right_le hshort
    · exact hshort
    · decide
  have hnames : ∀ step ∈ test.name :: test.fileNames, FileTree.IsName step := fun step hstep =>
    have ⟨_, _, hhere, habove⟩ := ne_dots_of_mem hname hstep
    ⟨hhere, habove, hsize step hstep⟩
  exact ⟨test.name, name, hpath, hnames _ (List.mem_cons_self ..),
    hnames _ (List.mem_cons_of_mem _ hmem)⟩

end TestCase

namespace TestSuite

variable {v : Variant} {ls : List Layout} {tests : List TestCase}

theorem map_ofString_files (hnames : ∀ test ∈ tests, ∃ label : TestLabel, test.name = label.name) :
    ((files tests).map OutputFile.path).map Path.ofString =
      tests.flatMap fun test => test.fileNames.map fun name => Path.through [test.name, name] := by
  rw [files, List.map_flatMap, List.map_flatMap]
  refine List.flatMap_congr fun test htest => ?_
  obtain ⟨label, hname⟩ := hnames test htest
  exact TestCase.map_ofString_files hname

/-- All files have different paths. -/
theorem nodup_map_ofString_files
    (hnames : ∀ test ∈ tests, ∃ label : TestLabel, test.name = label.name)
    (hnodup : (tests.map TestCase.name).Nodup) :
    (((files tests).map OutputFile.path).map Path.ofString).Nodup := by
  rw [map_ofString_files hnames, List.nodup_flatMap]
  constructor
  · intro test htest
    obtain ⟨label, hname⟩ := hnames test htest
    refine (TestCase.nodup_fileNames hname).map fun name name' h => ?_
    simpa [Path.through] using h
  · refine (List.pairwise_map.mp hnodup).imp fun {test other} hne path hpath hpath' => ?_
    obtain ⟨name, _, rfl⟩ := List.mem_map.mp hpath
    obtain ⟨name', _, h⟩ := List.mem_map.mp hpath'
    simp [Path.through] at h
    exact hne h.1.symm

/-- The files in the directory of a test are its own. -/
theorem filter_files (hnames : ∀ test ∈ tests, ∃ label : TestLabel, test.name = label.name)
    (hnodup : (tests.map TestCase.name).Nodup) {test : TestCase} (htest : test ∈ tests) :
    ((files tests).filter fun file => (Path.ofString file.path).steps.head? = some test.name) =
      test.files := by
  have hhead : ∀ other ∈ tests, ∀ file ∈ other.files,
      (Path.ofString file.path).steps.head? = some other.name := by
    intro other hother file hfile
    obtain ⟨label, hname⟩ := hnames other hother
    obtain ⟨name, _, hpath⟩ := TestCase.exists_ofString_eq hname hfile
    rw [hpath]
    rfl
  obtain ⟨front, back, rfl⟩ := List.append_of_mem htest
  have hothers : ∀ others : List TestCase, (∀ other ∈ others, other ∈ front ++ test :: back ∧
      other.name ≠ test.name) → ((files others).filter fun file =>
        (Path.ofString file.path).steps.head? = some test.name) = [] := by
    intro others h
    refine List.filter_eq_nil_iff.mpr fun file hfile => ?_
    obtain ⟨other, hother, hfile⟩ := List.mem_flatMap.mp hfile
    simp [hhead other (h other hother).1 file hfile, (h other hother).2]
  have hown : (test.files.filter fun file =>
      (Path.ofString file.path).steps.head? = some test.name) = test.files :=
    List.filter_eq_self.mpr fun file hfile => by simp [hhead test htest file hfile]
  rw [List.map_append, List.map_cons, List.nodup_middle, List.nodup_cons] at hnodup
  have hfront := hothers front fun other hother => ⟨List.mem_append_left _ hother, fun h =>
    hnodup.1 (List.mem_append_left _ (h ▸ List.mem_map_of_mem hother))⟩
  have hback := hothers back fun other hother =>
    ⟨List.mem_append_right _ (List.mem_cons_of_mem _ hother), fun h =>
      hnodup.1 (List.mem_append_right _ (h ▸ List.mem_map_of_mem hother))⟩
  rw [files, List.flatMap_append, List.flatMap_cons, List.filter_append, List.filter_append]
  change (files front).filter _ ++ (_ ++ (files back).filter _) = _
  rw [hfront, hown, hback, List.nil_append, List.append_nil]

theorem length_files (tests : List TestCase) : (files tests).length = 2 * tests.length := by
  have hlength : ∀ test : TestCase, test.files.length = 2 := fun _ => rfl
  simp [files, List.length_flatMap, hlength, Nat.mul_comm]

/-- No path of a file is another path or leads through it. -/
theorem pairwise_files (hnames : ∀ test ∈ tests, ∃ label : TestLabel, test.name = label.name)
    (hnodup : (tests.map TestCase.name).Nodup) :
    (files tests).Pairwise fun a b => Path.ofString a.path ≠ Path.ofString b.path ∧
      ¬(Path.ofString a.path).steps <+: (Path.ofString b.path).steps ∧
      ¬(Path.ofString b.path).steps <+: (Path.ofString a.path).steps := by
  have hpath : ∀ file ∈ files tests, ∃ directory name,
      Path.ofString file.path = .through [directory, name] := by
    intro file hfile
    obtain ⟨test, htest, hfile⟩ := List.mem_flatMap.mp hfile
    obtain ⟨label, hname⟩ := hnames test htest
    obtain ⟨name, _, hpath⟩ := TestCase.exists_ofString_eq hname hfile
    exact ⟨test.name, name, hpath⟩
  have hpaths := nodup_map_ofString_files hnames hnodup
  rw [List.map_map, List.nodup_iff_pairwise_ne, List.pairwise_map] at hpaths
  refine hpaths.imp_of_mem fun {a b} ha hb hne => ?_
  obtain ⟨directory, name, hleft⟩ := hpath a ha
  obtain ⟨directory', name', hright⟩ := hpath b hb
  -- both have two steps, and so the one can only start the other if they are equal
  have hprefix : ∀ {p q : Path} {x y x' y' : String}, p = .through [x, y] →
      q = .through [x', y'] → p ≠ q → ¬p.steps <+: q.steps := by
    rintro _ _ x y x' y' rfl rfl hne h
    exact hne (congrArg Path.through (h.eq_of_length rfl))
  exact ⟨hne, hprefix hleft hright hne, hprefix hright hleft hne.symm⟩

/-- Where words hold the ends of all fields and slots of layouts without padding, and only there,
they have tests. There are as many files as the groups, the sides and the confused layouts ask for.
Every test has a directory with just its two files, and no path is in the way of another: if the
names fit, then writing the files into an empty directory leaves them all there. -/
theorem files_apart (hv : v.defect? = none) (hls : ∀ l ∈ ls, l.Canonical v) :
    (all ls v = .error (.overflow .add) ∧ ¬ ∀ l ∈ ls, l.Roomy v) ∨
    (∀ l ∈ ls, l.Roomy v) ∧ ∃ tests confused, all ls v = .ok tests ∧
      (ls.mapM fun l => l.confusions v) = .ok confused ∧
      (files tests).length =
        2 * ((ls.length + 9) / 10 + 8 * ls.length + 8 * (confused.map List.length).sum) ∧
      (tests.map TestCase.name).Nodup ∧
      (∀ test ∈ tests, ((files tests).filter fun file =>
          (Path.ofString file.path).steps.head? = some test.name).map OutputFile.path =
        [test.name ++ "/" ++ test.name ++ ".c", test.name ++ "/manifest"]) ∧
      ((files tests).Pairwise fun a b => a.path ≠ b.path ∧
        ¬(Path.ofString a.path).steps <+: (Path.ofString b.path).steps ∧
        ¬(Path.ofString b.path).steps <+: (Path.ofString a.path).steps) ∧
      ((∀ test ∈ tests, (test.name ++ ".c").utf8ByteSize ≤ FileTree.maxNameBytes) →
        ∃ after, FileTree.access.writeAll .here (files tests) ∅ = (.ok (), after) ∧
          ∀ file ∈ files tests, after.read [] (.ofString file.path) = .ok file.contents) := by
  have hvalid := Variant.defect?_eq_none_iff.mp hv
  have hsolid : ∀ l ∈ ls, l.Solid v := fun l hl => (hls l hl).toSolid
  by_cases hroom : ∀ l ∈ ls, l.Roomy v
  case neg => exact .inl ⟨all_eq_error hvalid hsolid hroom, hroom⟩
  obtain ⟨tests, htests, hmap⟩ := exists_all_names hvalid hsolid hroom
  have hnodup : (tests.map TestCase.name).Nodup :=
    hmap ▸ (nodup_labels ls v).map TestLabel.name_injective
  have hnames : ∀ test ∈ tests, ∃ label : TestLabel, test.name = label.name := by
    intro test htest
    have hname := List.mem_map_of_mem (f := TestCase.name) htest
    rw [hmap] at hname
    obtain ⟨label, _, hname⟩ := List.mem_map.mp hname
    exact ⟨label, hname.symm⟩
  have hlength : tests.length = (labels ls v).length := by
    simpa using congrArg List.length hmap
  have hpairwise := pairwise_files hnames hnodup
  have hconfused : (ls.mapM fun l => l.confusions v) = .ok (ls.map (Layout.confused v)) :=
    mapM_eq_ok_map fun l hl =>
      Layout.confusions_eq_confused hvalid.capability_pos fun _ => hroom l hl
  refine .inr ⟨hroom, tests, ls.map (Layout.confused v), htests, hconfused, ?_, hnodup, ?_, ?_, ?_⟩
  · rw [length_files, hlength, length_labels, List.map_map]
    rfl
  · intro test htest
    rw [filter_files hnames hnodup htest]
    rfl
  · exact hpairwise.imp fun h => ⟨fun hpath => h.1 (congrArg Path.ofString hpath), h.2⟩
  · intro hshort
    refine FileTree.exists_writeAll FileTree.twoLevels_empty ?_ (hpairwise.imp And.left)
    intro file hfile
    obtain ⟨test, htest, hfile⟩ := List.mem_flatMap.mp hfile
    obtain ⟨label, hname⟩ := hnames test htest
    exact TestCase.exists_nested hname hfile (hshort test htest)

/-- The files of a capability and an integer, which have one confused layout. -/
theorem files_ptr_int_apart :
    Variant.filc.defect? = none ∧ Layout.Canonical .filc ⟨[⟨0, .ptr, 8⟩, ⟨8, .int, 4⟩]⟩ ∧
      ∃ tests, all [⟨[⟨0, .ptr, 8⟩, ⟨8, .int, 4⟩]⟩] .filc = .ok tests ∧
        (files tests).length = 34 ∧ (tests.map TestCase.name).Nodup ∧
        (files tests).Pairwise fun a b => a.path ≠ b.path := by
  have hvalid : Variant.filc.defect? = none := by decide
  have hcanonical : Layout.Canonical .filc ⟨[⟨0, .ptr, 8⟩, ⟨8, .int, 4⟩]⟩ :=
    ⟨⟨[.append .ptr 8, .append .int 4], by rfl⟩, by decide⟩
  have hconfusions : ([(⟨[⟨0, .ptr, 8⟩, ⟨8, .int, 4⟩]⟩ : Layout)].mapM fun l =>
      l.confusions .filc) = .ok [[⟨[⟨0, .ptr, 8⟩, ⟨8, .ptr, 8⟩]⟩]] := by rfl
  have hroom : Layout.Roomy .filc ⟨[⟨0, .ptr, 8⟩, ⟨8, .int, 4⟩]⟩ := ⟨by decide, by decide⟩
  rcases files_apart hvalid (List.forall_mem_singleton.mpr hcanonical) with
    ⟨_, hsmall⟩ | ⟨_, tests, confused, htests, hconfused, hlength, hnames, _, hpaths, _⟩
  · exact absurd (List.forall_mem_singleton.mpr hroom) hsmall
  · obtain rfl := Except.ok.inj (hconfusions.symm.trans hconfused)
    exact ⟨hvalid, hcanonical, tests, htests, hlength, hnames, hpaths.imp And.left⟩

end TestSuite

end CapFixture
