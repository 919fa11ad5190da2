import CapFixture.Command.Standard
import CapFixture.Proofs.Enumeration
import CapFixture.Proofs.Files.Writing
import CapFixture.Proofs.TestSuite.Files
import CapFixture.Proofs.Variant.Loading

/-!
# What runs leave

A run reads its input and works everything out before it changes the first file. So what it could
not read or work out leaves the tree as it was, and what it writes was made from the files before
the run, also if it writes over one of them.

## Main definitions

- `VariantChoice.Gives`, `Tabulates` — what the input of a run gives
- `Request.Leaves` — what a run leaves that was asked for this
-/

namespace CapFixture

namespace Command

/-- The builtin variants are valid. -/
theorem Builtin.defect?_variant (builtin : Builtin) : builtin.variant.defect? = none := by
  cases builtin <;> decide

variable {lib : Libraries} {cwd : List String} {choice : VariantChoice} {table : Option String}
  {t after : FileTree} {v : Variant} {root : Path} {tests : List TestCase}
  {files : List OutputFile} {request : Request} {args : List String}

/-! ### Inputs -/

/-- The choice gives this variant, by itself or by what its file contains. -/
def VariantChoice.Gives (choice : VariantChoice) (lib : Libraries) (cwd : List String)
    (t : FileTree) (v : Variant) : Prop :=
  match choice.file with
  | none => v = choice.builtin.variant
  | some file => ∃ source, t.read cwd (.ofString file) = .ok source ∧
    Variant.load lib.readVariant source = .ok v

/-- The table, which is the native one if there is no file, has these signatures. -/
def Tabulates (table : Option String) (cwd : List String) (t : FileTree)
    (signatures : List Signature) : Prop :=
  match table with
  | none => Table.Native.signatures = .ok signatures
  | some file =>
    ∃ source, t.read cwd (.ofString file) = .ok source ∧ Table.parse source = .ok signatures

theorem loadVariant_eq_ok_iff {file : String} {contents : Except FileError String} :
    loadVariant lib file contents = .ok v ↔
      ∃ source, contents = .ok source ∧ Variant.load lib.readVariant source = .ok v := by
  simp only [loadVariant, bind_eq_ok_iff, mapError_eq_ok_iff]

theorem loadTable_eq_ok_iff {file : String} {contents : Except FileError String}
    {signatures : List Signature} :
    loadTable file contents = .ok signatures ↔
      ∃ source, contents = .ok source ∧ Table.parse source = .ok signatures := by
  simp only [loadTable, bind_eq_ok_iff, mapError_eq_ok_iff]

/-- Reading a variant changes nothing. -/
theorem exists_readVariant (lib : Libraries) (cwd : List String) (choice : VariantChoice)
    (t : FileTree) : ∃ answer,
      readVariant lib (FileTree.accessFrom cwd) choice t = (answer, t) ∧
        ∀ v, answer = .ok v ↔ choice.Gives lib cwd t v := by
  rcases choice with ⟨builtin, _ | file⟩
  · exact ⟨.ok builtin.variant, rfl, fun v => Except.ok.injEq builtin.variant v ▸ eq_comm⟩
  · exact ⟨loadVariant lib file (t.read cwd (.ofString file)), rfl,
      fun v => loadVariant_eq_ok_iff⟩

/-- Reading a table changes nothing. -/
theorem exists_readTable (cwd : List String) (table : Option String) (t : FileTree) :
    ∃ answer, readTable (FileTree.accessFrom cwd) table t = (answer, t) ∧
      ∀ signatures, answer = .ok signatures ↔ Tabulates table cwd t signatures := by
  rcases table with _ | file
  · exact ⟨nativeTable, rfl, fun signatures => mapError_eq_ok_iff⟩
  · exact ⟨loadTable file (t.read cwd (.ofString file)), rfl,
      fun signatures => loadTable_eq_ok_iff⟩

theorem VariantChoice.Gives.defect?_eq_none (h : choice.Gives lib cwd t v) :
    v.defect? = none := by
  rcases choice with ⟨builtin, _ | file⟩
  · exact (show v = builtin.variant from h) ▸ builtin.defect?_variant
  · obtain ⟨source, _, hload⟩ := h
    exact Variant.defect?_eq_none_of_load hload

/-! ### Results -/

theorem testFiles_eq_ok_iff :
    testFiles v = .ok files ↔ ∃ ls tests, enumerate v = .ok ls ∧ TestSuite.all ls v = .ok tests ∧
      files = TestSuite.files tests := by
  simp only [testFiles, layoutsOf, bind_eq_ok_iff, mapError_eq_ok_iff]
  constructor
  · rintro ⟨ls, hls, tests, htests, h⟩
    cases h
    exact ⟨ls, tests, hls, htests, rfl⟩
  · rintro ⟨ls, tests, hls, htests, rfl⟩
    exact ⟨ls, hls, tests, htests, rfl⟩

/-- Layouts are shown as soon as they are enumerated, but as records only if they can be written. -/
theorem exists_layoutText_iff {asRecords : Bool} :
    (∃ text, layoutText lib asRecords v = .ok text) ↔
      ∃ ls, enumerate v = .ok ls ∧
        (asRecords = true → ∃ records, lib.writeLayouts ls = .ok records) := by
  simp only [layoutText, layoutsOf, bind_eq_ok_iff, mapError_eq_ok_iff]
  constructor
  · rintro ⟨text, ls, hls, h⟩
    refine ⟨ls, hls, fun hrecords => ?_⟩
    rw [if_pos hrecords, bind_eq_ok_iff] at h
    obtain ⟨records, hwritten, _⟩ := h
    exact ⟨records, mapError_eq_ok_iff.mp hwritten⟩
  · rintro ⟨ls, hls, h⟩
    cases asRecords with
    | false => exact ⟨_, ls, hls, rfl⟩
    | true =>
      obtain ⟨records, hwritten⟩ := h rfl
      refine ⟨records ++ "\n", ls, hls, ?_⟩
      rw [if_pos rfl, hwritten]
      rfl

/-- The files of all tests have different places below a root. -/
theorem nodup_places (root : Path) (cwd : List String)
    (hnames : ∀ test ∈ tests, ∃ label : TestLabel, test.name = label.name)
    (hnodup : (tests.map TestCase.name).Nodup) :
    ((TestSuite.files tests).map fun file => (file.pathBelow root).place cwd).Nodup := by
  have hpaths := TestSuite.nodup_map_ofString_files hnames hnodup
  rw [List.map_map] at hpaths
  have hplace : ∀ file ∈ TestSuite.files tests, ∃ steps,
      Path.ofString file.path = .through steps ∧
        (file.pathBelow root).place cwd = root.place cwd ++ steps := by
    intro file hfile
    obtain ⟨test, htest, hfile⟩ := List.mem_flatMap.mp hfile
    obtain ⟨label, hname⟩ := hnames test htest
    obtain ⟨steps, hpath, hdots⟩ := TestCase.exists_through hname hfile
    exact ⟨steps, hpath, by rw [OutputFile.pathBelow, hpath, Path.place_join_through hdots]⟩
  refine List.Nodup.map_on (fun file hfile other hother heq => ?_) hpaths.of_map
  obtain ⟨steps, hpath, hsteps⟩ := hplace file hfile
  obtain ⟨steps', hpath', hsteps'⟩ := hplace other hother
  rw [hsteps, hsteps', List.append_cancel_left_eq] at heq
  refine List.inj_on_of_nodup_map hpaths hfile hother ?_
  rw [Function.comp, Function.comp, hpath, hpath', heq]

/-- Tests that are all written are below the root, each with its own contents. -/
theorem read_of_overlaid (hv : v.defect? = none) {ls : List Layout} (hls : enumerate v = .ok ls)
    (htests : TestSuite.all ls v = .ok tests)
    (h : FileTree.Overlaid cwd root (TestSuite.files tests) t after) :
    ∀ file ∈ TestSuite.files tests,
      after.read cwd (file.pathBelow root) = .ok file.contents := by
  have hvalid := Variant.defect?_eq_none_iff.mp hv
  have hpossible : ∀ l ∈ ls, l.Possible v := fun l hl => possible_of_mem_enumerate hvalid hls hl
  obtain ⟨tests', htests', hnodup, hnames⟩ := TestSuite.exists_all_labelled hvalid
    (fun l hl => (hpossible l hl).toSolid) fun l hl => (hpossible l hl).roomy hvalid
  obtain rfl := Except.ok.inj (htests.symm.trans htests')
  intro file hfile
  exact h.read_eq file hfile _
    (OutputFile.lastContents?_eq_of_nodup (nodup_places root cwd hnames hnodup) hfile)

/-! ### Runs -/

/-- What a run leaves that writes tests. -/
structure TestsLeave (lib : Libraries) (cwd : List String) (choice : VariantChoice)
    (directory : String) (t : FileTree) (status : Nat) (after : FileTree) : Prop where
  /-- Without a variant nothing is done. -/
  unchanged : (¬∃ v, choice.Gives lib cwd t v) → status ≠ 0 ∧ after = t
  /-- The tests of the variant's layouts are there, and other files are as they were. -/
  written : status = 0 → ∃ v ls tests, choice.Gives lib cwd t v ∧ enumerate v = .ok ls ∧
    TestSuite.all ls v = .ok tests ∧
    FileTree.Overlaid cwd (.ofString directory) (TestSuite.files tests) t after ∧
    (∀ file ∈ TestSuite.files tests,
      after.read cwd (file.pathBelow (.ofString directory)) = .ok file.contents) ∧
    ∀ place, (∀ file ∈ TestSuite.files tests,
      (file.pathBelow (.ofString directory)).place cwd ≠ place) → after.file? place = t.file? place
  succeeds_iff : status = 0 ↔ ∃ v ls tests written, choice.Gives lib cwd t v ∧
    enumerate v = .ok ls ∧ TestSuite.all ls v = .ok tests ∧
    (FileTree.accessFrom cwd).writeAll (.ofString directory) (TestSuite.files tests) t =
      (.ok (), written)

/-- What a run leaves that writes forwarders. -/
structure ForwardersLeave (cwd : List String) (kind : ForwarderKind) (output : String)
    (table : Option String) (t : FileTree) (status : Nat) (after : FileTree) : Prop where
  unchanged : status ≠ 0 → after = t
  /-- One file is written, from the table as it was before. -/
  written : status = 0 → ∃ signatures, Tabulates table cwd t signatures ∧
    after.read cwd (.ofString output) = .ok (forwarderText kind signatures) ∧
    after[(Path.ofString output).place cwd]? = some (.file (forwarderText kind signatures)) ∧
    ∀ place, place ≠ (Path.ofString output).place cwd → after[place]? = t[place]?
  succeeds_iff : status = 0 ↔ ∃ signatures written, Tabulates table cwd t signatures ∧
    t.write cwd (.ofString output) (forwarderText kind signatures) = .ok written

/-- What a run leaves that was asked for this. -/
def Request.Leaves (lib : Libraries) (cwd : List String) (t : FileTree) (status : Nat)
    (after : FileTree) : Request → Prop
  | .layouts choice asRecords => after = t ∧ (status = 0 ↔
      ∃ v ls, choice.Gives lib cwd t v ∧ enumerate v = .ok ls ∧
        (asRecords = true → ∃ records, lib.writeLayouts ls = .ok records))
  | .tests choice directory => TestsLeave lib cwd choice directory t status after
  | .forwarders kind output table => ForwardersLeave cwd kind output table t status after

theorem status_ofResult_eq_zero_iff {result : Except Failure String} :
    (Outcome.ofResult result).status = 0 ↔ ∃ text, result = .ok text := by
  cases result with
  | error f => exact iff_of_false Nat.one_ne_zero nofun
  | ok text => exact iff_of_true rfl ⟨text, rfl⟩

section
variable (lib : Libraries) (cwd : List String)

theorem perform_layouts (choice : VariantChoice) (asRecords : Bool) (t : FileTree) :
    ∃ outcome, perform lib (FileTree.accessFrom cwd) (.layouts choice asRecords) t =
      (outcome, t) ∧ (outcome.status = 0 ↔
        ∃ v ls, choice.Gives lib cwd t v ∧ enumerate v = .ok ls ∧
          (asRecords = true → ∃ records, lib.writeLayouts ls = .ok records)) := by
  obtain ⟨answer, hread, hanswer⟩ := exists_readVariant lib cwd choice t
  refine ⟨.ofResult (answer.bind (layoutText lib asRecords)), ?_, ?_⟩
  · simp only [perform, bind, StateT.bind, hread]
    rfl
  · rw [status_ofResult_eq_zero_iff]
    constructor
    · rintro ⟨text, h⟩
      obtain ⟨v, hv, htext⟩ := bind_eq_ok_iff.mp h
      obtain ⟨ls, hls, hrecords⟩ := exists_layoutText_iff.mp ⟨text, htext⟩
      exact ⟨v, ls, (hanswer v).mp hv, hls, hrecords⟩
    · rintro ⟨v, ls, hgives, hls, hrecords⟩
      obtain ⟨text, htext⟩ := exists_layoutText_iff.mpr ⟨ls, hls, hrecords⟩
      exact ⟨text, bind_eq_ok_iff.mpr ⟨v, (hanswer v).mpr hgives, htext⟩⟩

theorem perform_tests (choice : VariantChoice) (directory : String) (t : FileTree) :
    ∃ outcome after, perform lib (FileTree.accessFrom cwd) (.tests choice directory) t =
      (outcome, after) ∧ TestsLeave lib cwd choice directory t outcome.status after := by
  obtain ⟨answer, hread, hanswer⟩ := exists_readVariant lib cwd choice t
  cases hfiles : answer.bind testFiles with
  | error f =>
    -- nothing was written yet, whether there was no variant or its files could not be made
    have hnone : ¬∃ v files, choice.Gives lib cwd t v ∧ testFiles v = .ok files := by
      rintro ⟨v, files, hv, htests⟩
      rw [(hanswer v).mpr hv] at hfiles
      cases hfiles.symm.trans htests
    refine ⟨.failure f, t, ?_, fun _ => ⟨Nat.one_ne_zero, rfl⟩, nofun, nofun, ?_⟩
    · simp only [perform, bind, StateT.bind, hread, hfiles]
      rfl
    · rintro ⟨v, ls, tests, _, hv, hls, htests, _⟩
      exact absurd ⟨v, _, hv, testFiles_eq_ok_iff.mpr ⟨ls, tests, hls, htests, rfl⟩⟩ hnone
  | ok files =>
    obtain ⟨v, rfl, hlisted⟩ := bind_eq_ok_iff.mp hfiles
    obtain ⟨ls, tests, hls, htests, rfl⟩ := testFiles_eq_ok_iff.mp hlisted
    have hgives := (hanswer v).mp rfl
    rcases FileTree.writeAll_cases cwd (.ofString directory) (TestSuite.files tests) t with
      ⟨after, hdone, hover⟩ | ⟨_, _, _, _, error, after, _, _, _, _, _, hstopped⟩
    · have hread' := read_of_overlaid hgives.defect?_eq_none hls htests hover
      refine ⟨.success "", after, ?_, fun hnone => absurd ⟨v, hgives⟩ hnone,
        fun _ => ⟨v, ls, tests, hgives, hls, htests, hover, hread',
          fun place => hover.file?_eq_of_ne⟩,
        iff_of_true rfl ⟨v, ls, tests, after, hgives, hls, htests, hdone⟩⟩
      simp only [perform, bind, StateT.bind, hread, hfiles, hdone]
      rfl
    · refine ⟨.failure ⟨"failed to write tests to " ++ directory, [error.message]⟩, after, ?_,
        fun hnone => absurd ⟨v, hgives⟩ hnone, nofun, iff_of_false Nat.one_ne_zero ?_⟩
      · simp only [perform, bind, StateT.bind, hread, hfiles, hstopped]
        rfl
      · -- each step before the writing has one result only
        rintro ⟨v', ls', tests', written, hv', hls', htests', hdone⟩
        obtain rfl := Except.ok.inj ((hanswer v').mpr hv')
        obtain rfl := Except.ok.inj (hls.symm.trans hls')
        obtain rfl := Except.ok.inj (htests.symm.trans htests')
        cases hstopped.symm.trans hdone

theorem perform_forwarders (kind : ForwarderKind) (output : String) (table : Option String)
    (t : FileTree) : ∃ outcome after,
      perform lib (FileTree.accessFrom cwd) (.forwarders kind output table) t = (outcome, after) ∧
        ForwardersLeave cwd kind output table t outcome.status after := by
  obtain ⟨answer, hread, hanswer⟩ := exists_readTable cwd table t
  rcases answer with f | signatures
  · refine ⟨.failure f, t, ?_, fun _ => rfl, nofun, iff_of_false Nat.one_ne_zero ?_⟩
    · simp only [perform, bind, StateT.bind, hread]
      rfl
    · rintro ⟨signatures, _, htable, _⟩
      cases (hanswer signatures).mpr htable
  · have htable := (hanswer signatures).mp rfl
    cases hwrite : t.write cwd (.ofString output) (forwarderText kind signatures) with
    | ok written =>
      refine ⟨.success "", written, ?_, fun h => absurd rfl h, fun _ => ⟨signatures, htable,
        FileTree.read_write hwrite, FileTree.getElem?_write_self hwrite,
        fun place hplace => FileTree.getElem?_write_ne hwrite hplace.symm⟩,
        iff_of_true rfl ⟨signatures, written, htable, hwrite⟩⟩
      simp only [perform, bind, StateT.bind, hread, FileTree.access_write_ok hwrite]
      rfl
    | error error =>
      refine ⟨.failure ⟨"failed to write " ++ output, [error.message]⟩, t, ?_, fun _ => rfl,
        nofun, iff_of_false Nat.one_ne_zero ?_⟩
      · simp only [perform, bind, StateT.bind, hread, FileTree.access_write_error hwrite]
        rfl
      · rintro ⟨signatures', written, htable', hwritten⟩
        obtain rfl := Except.ok.inj ((hanswer signatures').mpr htable')
        cases hwrite.symm.trans hwritten

end

/-- Whatever libraries it uses and wherever it runs, a run that fails to read, to make sense of its
input or to write leaves the tree as it was, and so does one that prints layouts. Forwarders are
made from the table as it was before, and written to their file alone. Tests are written only for a
variant, and if they are all written, they are all that has changed. -/
theorem run_leaves (h : lib.readArguments args = .ok request) (cwd : List String)
    (t : FileTree) :
    ∃ outcome after, run lib (FileTree.accessFrom cwd) args t = (outcome, after) ∧
      request.Leaves lib cwd t outcome.status after := by
  have hrun : run lib (FileTree.accessFrom cwd) args t =
      perform lib (FileTree.accessFrom cwd) request t := by
    rw [run, h]
  rw [hrun]
  cases request with
  | layouts choice asRecords =>
    obtain ⟨outcome, hperform, hstatus⟩ := perform_layouts lib cwd choice asRecords t
    exact ⟨outcome, t, hperform, rfl, hstatus⟩
  | tests choice directory => exact perform_tests lib cwd choice directory t
  | forwarders kind output table => exact perform_forwarders lib cwd kind output table t

/-- A table is replaced by the header of its own signatures, by a run in its directory that is given
the whole path of it. -/
theorem run_header_leaves :
    let before : FileTree := ((∅ : FileTree).insert ["in"] .directory).insert ["in", "sigs"]
      (.file "void f();")
    ∃ outcome after, run .standard (FileTree.accessFrom ["in"])
        ["forwarders", "header", "--out=/in/sigs", "--table=sigs"] before = (outcome, after) ∧
      outcome.status = 0 ∧
      ∃ signatures, Table.parse "void f();" = .ok signatures ∧
        after.read ["in"] (.ofString "sigs") = .ok (Forwarder.header signatures) := by
  intro before
  have hrequest : Libraries.standard.readArguments
      ["forwarders", "header", "--out=/in/sigs", "--table=sigs"] =
        .ok (.forwarders .header "/in/sigs" (some "sigs")) := by decide +kernel
  obtain ⟨outcome, after, hrun, hleaves⟩ := run_leaves hrequest ["in"] before
  have hread : before.read ["in"] (.ofString "sigs") = .ok "void f();" := by rfl
  have hparses : (Table.parse "void f();").isOk = true := by decide +kernel
  obtain ⟨signatures, hparse⟩ := exists_eq_ok_of_isOk hparses
  have hstatus : outcome.status = 0 :=
    hleaves.succeeds_iff.mpr ⟨signatures, _, ⟨_, hread, hparse⟩, rfl⟩
  obtain ⟨signatures, ⟨source, hsource, hparse⟩, hwritten, _⟩ := hleaves.written hstatus
  obtain rfl := Except.ok.inj (hread.symm.trans hsource)
  exact ⟨outcome, after, hrun, hstatus, signatures, hparse, hwritten⟩

end Command

end CapFixture
