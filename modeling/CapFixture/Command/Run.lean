import CapFixture.Command.Outcome
import CapFixture.Command.Request
import CapFixture.Enumeration
import CapFixture.Files.Access
import CapFixture.Forwarder.Implementation
import CapFixture.Listing
import CapFixture.Table.Native
import CapFixture.TestSuite
import CapFixture.Variant.Validity

/-!
# Runs of the program

A run reads what its request names, works it out, and writes or prints the result. Nothing is
written before everything is read and worked out.

## Main definitions

- `Libraries` — what is not done by the program itself
- `run` — the run of some arguments
-/

namespace CapFixture.Command

/-- What the program leaves to libraries. -/
structure Libraries where
  /-- The request that the arguments make, or the answer to arguments that make none. -/
  readArguments : List String → Except Outcome Request
  /-- The variant in a record, or what is wrong with the record. -/
  readVariant : String → Except String Variant
  /-- Layouts as records, over many lines. -/
  writeLayouts : List Layout → Except String String

/-- The causes of a variant's refusal. What is wrong with a record is a cause of its own. -/
def loadCauses (error : Variant.LoadError) : List String :=
  match error with
  | .malformed description => [error.message, description]
  | .invalid .. => [error.message]

/-- The variant in the contents of a file. -/
def loadVariant (lib : Libraries) (file : String) (contents : Except FileError String) :
    Except Failure Variant := do
  let source ← contents.mapError fun error =>
    ⟨"failed to read variant file " ++ file, [error.message]⟩
  (Variant.load lib.readVariant source).mapError fun error =>
    ⟨"failed to load variant from " ++ file, loadCauses error⟩

/-- The layouts of a variant. -/
def layoutsOf (v : Variant) : Except Failure (List Layout) :=
  (enumerate v).mapError fun fault => ⟨fault.message, []⟩

/-- The text that shows the layouts of a variant. -/
def layoutText (lib : Libraries) (asRecords : Bool) (v : Variant) : Except Failure String := do
  let layouts ← layoutsOf v
  if asRecords then
    let records ← (lib.writeLayouts layouts).mapError fun error => ⟨error, []⟩
    return records ++ "\n"
  else return Listing.render layouts

/-- The files of all tests of a variant. -/
def testFiles (v : Variant) : Except Failure (List OutputFile) := do
  let layouts ← layoutsOf v
  let tests ← (TestSuite.all layouts v).mapError fun fault => ⟨fault.message, []⟩
  return TestSuite.files tests

/-- The signatures in the contents of a file. -/
def loadTable (file : String) (contents : Except FileError String) :
    Except Failure (List Signature) := do
  let source ← contents.mapError fun error => ⟨"failed to read " ++ file, [error.message]⟩
  (Table.parse source).mapError fun error => ⟨"failed to parse " ++ file, [error.message]⟩

/-- The signatures of the native table. -/
def nativeTable : Except Failure (List Signature) :=
  Table.Native.signatures.mapError fun error =>
    ⟨"built-in signature table is malformed", [error.message]⟩

/-- The text of the forwarders. -/
def forwarderText : ForwarderKind → List Signature → String
  | .header => Forwarder.header
  | .source => Forwarder.source

section

variable {m : Type → Type} [Monad m] (lib : Libraries)

/-- The variant of a choice. A file, if there is one, gives the variant. -/
def readVariant (access : FileAccess m) (choice : VariantChoice) : m (Except Failure Variant) :=
  match choice.file with
  | none => return .ok choice.builtin.variant
  | some file => return loadVariant lib file (← access.read (.ofString file))

/-- Reads the table, if it is in a file. -/
def readTable (access : FileAccess m) (table : Option String) :
    m (Except Failure (List Signature)) :=
  match table with
  | none => return nativeTable
  | some file => return loadTable file (← access.read (.ofString file))

/-- Does what is requested. -/
def perform (access : FileAccess m) : Request → m Outcome
  | .layouts choice asRecords => do
    let variant ← readVariant lib access choice
    return .ofResult (variant.bind (layoutText lib asRecords))
  | .tests choice directory => do
    match (← readVariant lib access choice).bind testFiles with
    | .error f => return .failure f
    | .ok files =>
      match ← access.writeAll (.ofString directory) files with
      | .ok () => return .success ""
      | .error error => return .failure ⟨"failed to write tests to " ++ directory, [error.message]⟩
  | .forwarders kind output table => do
    match ← readTable access table with
    | .error f => return .failure f
    | .ok signatures =>
      match ← access.write (.ofString output) (forwarderText kind signatures) with
      | .ok () => return .success ""
      | .error error => return .failure ⟨"failed to write " ++ output, [error.message]⟩

/-- The run of some arguments. -/
def run (access : FileAccess m) (args : List String) : m Outcome :=
  match lib.readArguments args with
  | .error answer => return answer
  | .ok request => perform lib access request

end

end CapFixture.Command
