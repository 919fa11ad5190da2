import CapFixture.Proofs.TestProgram.Access
import CapFixture.Proofs.TestProgram.Functions

/-!
# Reading programs back

The statements of tests, read off the text of their program: what a test writes and reads and where,
what it compares, by how much it moves the pointer and where the pointer is hidden. A capability has
the width that the variant gives it.

## Main definitions

- `statement?` — the statement that a line is
- `testIn`, `testsIn` — the statements of the tests in a text
- `scenario?`, `scenarioIn` — what a test writes and reads
-/

namespace CapFixture

open Forwarder (CToken after? rows tokens variableOf?)

def CType.all : List CType := [.int8, .int16, .int32, .int64, .int128, .charPtr]

namespace TestProgram

/-! ### Lines -/

/-- The C type with this spelling. -/
def type? (ts : List CToken) : Option CType := CType.all.find? fun type => tokens type.name = ts

/-- The place of which a line starts with the value: the type of a pointer in parentheses, and then
the offset behind `buf`. -/
def place? : List CToken → Option Place
  | .mark '*' :: .mark '(' :: ts =>
    match ts.dropWhile (· ≠ .mark ')') with
    | .mark ')' :: .mark '(' :: .word "buf" :: .mark '+' :: .word digits :: _ => do
      let type ← type? (ts.takeWhile (· ≠ .mark ')')).dropLast
      let offset ← Text.numeral? digits
      return ⟨type, offset⟩
    | _ => none
  | _ => none

/-- The number at the end of a line, which may be negative. -/
def integer? : List CToken → Option Int
  | [.word digits, .mark ';'] => (Text.numeral? digits).map Int.ofNat
  | [.mark '-', .word digits, .mark ';'] => (Text.numeral? digits).map fun n => -Int.ofNat n
  | _ => none

/-- Whether `opaque` comes first, and what follows. -/
def uncovered : List CToken → Bool × List CToken
  | .word "opaque" :: ts => (true, ts)
  | ts => (false, ts)

/-- The allocation whose value this is. -/
def allocation? (ts : List CToken) : Option Statement :=
  match uncovered ts with
  | (hidden, .mark '(' :: .word "malloc" :: .mark '(' :: .word digits :: _) =>
    (Text.numeral? digits).map (.allocate · hidden)
  | _ => none

/-- The shift that casts this pointer. -/
def shift? (ts : List CToken) : Option Statement :=
  match uncovered ts with
  | (hidden, .mark '(' :: .word "buf" :: .mark ')' :: .mark '+' :: rest) =>
    (integer? rest).map (.shift · hidden)
  | _ => none

/-- The number in the name of a variable that is loaded. -/
def indexOf? (name : String) : Option Nat := (after? "f" name).bind Text.numeral?

/-- The load of this value into the variable of this name. -/
def load? (name : String) (ts : List CToken) : Option Statement := do
  let index ← indexOf? name
  let place ← place? ts
  return .load index place

/-- What a line assigns. -/
def content? (ts : List CToken) : Option Value :=
  match ts.dropWhile (· ≠ .mark '=') with
  | [.mark '=', .word "hello", .mark ';'] => some .hello
  | [.mark '=', .word "value", .mark ';'] => some .value
  | _ => none

def store? (ts : List CToken) : Option Statement := do
  let place ← place? ts
  let content ← content? ts
  return .store place content

/-- The assertion of this condition. -/
def check? : List CToken → Option Statement
  | [.mark '!', .word "strcmp", .mark '(', .word name, .mark ',', .mark '"', .word "hello",
      .mark '"', .mark ')', .mark ')', .mark ';'] => (indexOf? name).map (.check · .hello)
  | [.word name, .mark '=', .mark '=', .word "value", .mark ')', .mark ';'] =>
    (indexOf? name).map (.check · .value)
  | _ => none

/-- The statement of a line that declares nothing. -/
def command? : List CToken → Option Statement
  | .word "buf" :: .mark '=' :: .mark '(' :: .word "char" :: .mark '*' :: .mark ')' :: pointer =>
    shift? pointer
  | .word "ZASSERT" :: .mark '(' :: condition => check? condition
  | ts => store? ts

/-- The statement that a line is. Of what is no statement of a test, nothing is read. -/
def statement? (ts : List CToken) : Option Statement :=
  match variableOf? ts with
  | some (declared, value) =>
    if declared.name = "buf" then allocation? value.tail else load? declared.name value.tail
  | none => command? ts

/-- The statements of the test in a text. -/
def testIn (text : String) : List Statement :=
  ((functionsFrom (rows text)).filter fun function => function.1 = "main").flatMap
    fun function => function.2.filterMap statement?

/-- The statements of each of the tests in a text, which are functions of their own. -/
def testsIn (text : String) : List (List Statement) :=
  ((functionsFrom (rows text)).filter fun function => (after? "test" function.1).isSome).map
    fun function => function.2.filterMap statement?

/-! ### Scenarios -/

/-- The field that is accessed at a place, where capabilities have the given width. -/
def Place.field (width : Nat) (place : Place) : Field where
  offset := place.offset
  kind := if place.type = .charPtr then .ptr else .int
  size := place.type.bytes width

namespace Statement

def stored? : Statement → Option Place
  | store place _ => some place
  | _ => none

def loaded? : Statement → Option Place
  | load _ place => some place
  | _ => none

def allocated? : Statement → Option Bool
  | allocate _ hidden => some hidden
  | _ => none

def shifted? : Statement → Option (Int × Bool)
  | shift displacement hidden => some (displacement, hidden)
  | _ => none

end Statement

/-- The layout with the fields at some places. -/
def layoutAt (width : Nat) (places : List Place) : Layout := ⟨places.map (Place.field width)⟩

/-- What a test writes and reads, if it has an allocation and a shift. -/
def scenario? (width : Nat) (test : List Statement) : Option Scenario := do
  let first ← test.findSome? Statement.allocated?
  let (displacement, second) ← test.findSome? Statement.shifted?
  return ⟨layoutAt width (test.filterMap Statement.stored?),
    layoutAt width (test.filterMap Statement.loaded?), displacement, ⟨first, second⟩⟩

/-- What the test in a text writes and reads. -/
def scenarioIn (width : Nat) (text : String) : Option Scenario := scenario? width (testIn text)

/-! ### What statements consist of -/

section
variable (place : Place) (hidden : Bool)

/-- The call that hides a pointer. -/
def cover (hidden : Bool) : List CToken := if hidden then [.word "opaque"] else []

theorem tokens_cover : tokens (if hidden then "opaque" else "") = cover hidden := by
  cases hidden <;> decide

/-- An integer with its sign. -/
def integerTokens : Int → List CToken
  | .ofNat n => [.word (toString n)]
  | .negSucc n => [.mark '-', .word (toString (n + 1))]

theorem tokens_toString_int (i : Int) : tokens (toString i) = integerTokens i := by
  cases i with
  | ofNat n => exact Forwarder.tokens_toString n
  | negSucc n =>
    have hsign : tokens "-" = [.mark '-'] := by decide
    have htext : toString (Int.negSucc n) = "-" ++ toString (n + 1) := rfl
    rw [htext, Forwarder.tokens_append_left (by decide), hsign, Forwarder.tokens_toString]
    rfl

theorem tokens_variableName (index : Nat) :
    tokens (Statement.variableName index) = [.word (Statement.variableName index)] :=
  Forwarder.tokens_prefixed (by decide) (Forwarder.oneWord_ofList _ (by decide))
    (Forwarder.oneWord_toString index)

/-- The value at a place. -/
def accessTokens (place : Place) : List CToken :=
  .mark '*' :: .mark '(' :: (tokens place.type.name ++ [.mark '*', .mark ')', .mark '(',
    .word "buf", .mark '+', .word (toString place.offset), .mark ')'])

theorem tokens_access (rest : String) :
    tokens (Statement.access place ++ rest) = accessTokens place ++ tokens rest := by
  have hopen : tokens "*(" = [.mark '*', .mark '('] := by decide
  have hbuf : tokens "*)(buf + " = [.mark '*', .mark ')', .mark '(', .word "buf", .mark '+'] := by
    decide
  have hclose : tokens ")" = [.mark ')'] := by decide
  have htext : Statement.access place ++ rest = "*(" ++ (place.type.name ++ ("*)(buf + " ++
      (toString place.offset ++ (")" ++ rest)))) := by
    simp only [Statement.access, String.append_assoc]
  rw [htext, Forwarder.tokens_append_left (by decide), hopen,
    Forwarder.tokens_separated (by decide) (by decide) (by decide), hbuf,
    Forwarder.tokens_separated (by decide) (by decide) (by decide), hclose,
    Forwarder.tokens_toString, accessTokens]
  simp

theorem tokens_allocate (bytes : Nat) :
    tokens (Statement.allocate bytes hidden).render =
      [.word "char", .mark '*'] ++ .word "buf" :: .mark '=' :: (cover hidden ++ .mark '(' ::
        .word "malloc" :: .mark '(' :: .word (toString bytes) :: [.mark ')', .mark ')', .mark ';'])
    := by
  have hstart : tokens "char* buf = " = [.word "char", .mark '*', .word "buf", .mark '='] :=
    (Forwarder.tokens_ofList _).trans (by decide)
  have hcall : tokens "(malloc(" = [.mark '(', .word "malloc", .mark '('] := by decide
  have hend : tokens "));" = [.mark ')', .mark ')', .mark ';'] := by decide
  have htext : (Statement.allocate bytes hidden).render = "char* buf = " ++
      ((if hidden then "opaque" else "") ++ ("(malloc(" ++ (toString bytes ++ "));"))) := by
    simp only [← String.append_assoc]
    rfl
  rw [htext, Forwarder.tokens_append_left (by decide), hstart,
    Forwarder.tokens_separated (by decide) (by decide) (by decide), tokens_cover, hcall,
    Forwarder.tokens_append_right (by decide), hend, Forwarder.tokens_toString]
  simp

theorem tokens_content (content : Value) : tokens content.name = [.word content.name] := by
  cases content <;> decide

theorem tokens_store (content : Value) : tokens (Statement.store place content).render =
    accessTokens place ++ [.mark '=', .word content.name, .mark ';'] := by
  have hequals : tokens " = " = [.mark '='] := by decide
  have hend : tokens ";" = [.mark ';'] := by decide
  have htext : (Statement.store place content).render =
      Statement.access place ++ (" = " ++ (content.name ++ ";")) := by
    simp only [← String.append_assoc]
    rfl
  rw [htext, tokens_access, Forwarder.tokens_append_left (by decide), hequals,
    Forwarder.tokens_append_right (by decide), hend, tokens_content]
  rfl

theorem tokens_shift (displacement : Int) :
    tokens (Statement.shift displacement hidden).render =
      .word "buf" :: .mark '=' :: .mark '(' :: .word "char" :: .mark '*' :: .mark ')' ::
        (cover hidden ++ .mark '(' :: .word "buf" :: .mark ')' :: .mark '+' ::
          (integerTokens displacement ++ [.mark ';'])) := by
  have hstart : tokens "buf = (char*)" =
      [.word "buf", .mark '=', .mark '(', .word "char", .mark '*', .mark ')'] :=
    (Forwarder.tokens_ofList _).trans (by decide)
  have hplus : tokens "(buf) + " = [.mark '(', .word "buf", .mark ')', .mark '+'] := by decide
  have hend : tokens ";" = [.mark ';'] := by decide
  have htext : (Statement.shift displacement hidden).render = "buf = (char*)" ++
      ((if hidden then "opaque" else "") ++ ("(buf) + " ++ (toString displacement ++ ";"))) := by
    simp only [← String.append_assoc]
    rfl
  rw [htext, Forwarder.tokens_append_left (by decide), hstart,
    Forwarder.tokens_separated (by decide) (by decide) (by decide), tokens_cover, hplus,
    Forwarder.tokens_append_right (by decide), hend, tokens_toString_int]
  simp

theorem tokens_load (index : Nat) : tokens (Statement.load index place).render =
    tokens place.type.name ++ .word (Statement.variableName index) :: .mark '=' ::
      (accessTokens place ++ [.mark ';']) := by
  have hblank : tokens " " = [] := by decide
  have hequals : tokens " = " = [.mark '='] := by decide
  have hend : tokens ";" = [.mark ';'] := by decide
  have htext : (Statement.load index place).render = place.type.name ++ (" " ++
      (Statement.variableName index ++ (" = " ++ (Statement.access place ++ ";")))) := by
    simp only [← String.append_assoc]
    rfl
  rw [htext, Forwarder.tokens_separated (by decide) (by decide) (by decide), hblank,
    Forwarder.tokens_separated (by decide) (by decide) (by decide), hequals, tokens_access, hend,
    tokens_variableName]
  simp

theorem tokens_check_hello (index : Nat) : tokens (Statement.check index .hello).render =
    [.word "ZASSERT", .mark '(', .mark '!', .word "strcmp", .mark '(',
      .word (Statement.variableName index), .mark ',', .mark '"', .word "hello", .mark '"',
      .mark ')', .mark ')', .mark ';'] := by
  have hstart : tokens "ZASSERT(!strcmp(" =
      [.word "ZASSERT", .mark '(', .mark '!', .word "strcmp", .mark '('] :=
    (Forwarder.tokens_ofList _).trans (by decide)
  have hend : tokens ", \"hello\"));" =
      [.mark ',', .mark '"', .word "hello", .mark '"', .mark ')', .mark ')', .mark ';'] :=
    (Forwarder.tokens_ofList _).trans (by decide)
  have htext : (Statement.check index .hello).render =
      "ZASSERT(!strcmp(" ++ (Statement.variableName index ++ ", \"hello\"));") := by
    simp only [← String.append_assoc]
    rfl
  rw [htext, Forwarder.tokens_append_left (by decide), hstart,
    Forwarder.tokens_append_right (by decide), hend, tokens_variableName]
  rfl

theorem tokens_check_value (index : Nat) : tokens (Statement.check index .value).render =
    [.word "ZASSERT", .mark '(', .word (Statement.variableName index), .mark '=', .mark '=',
      .word "value", .mark ')', .mark ';'] := by
  have hstart : tokens "ZASSERT(" = [.word "ZASSERT", .mark '('] := by decide
  have hend : tokens " == value);" =
      [.mark '=', .mark '=', .word "value", .mark ')', .mark ';'] :=
    (Forwarder.tokens_ofList _).trans (by decide)
  have htext : (Statement.check index .value).render =
      "ZASSERT(" ++ (Statement.variableName index ++ " == value);") := by
    simp only [← String.append_assoc]
    rfl
  rw [htext, Forwarder.tokens_append_left (by decide), hstart,
    Forwarder.tokens_append_right (by decide), hend, tokens_variableName]
  rfl

end

/-! ### Statements -/

section
variable (place : Place)

theorem type?_tokens (type : CType) : type? (tokens type.name) = some type := by
  cases type <;> decide

/-- A value is read whatever follows it. -/
theorem place?_accessTokens (rest : List CToken) :
    place? (accessTokens place ++ rest) = some place := by
  have htype : ∀ t ∈ tokens place.type.name ++ [.mark '*'], decide (t ≠ .mark ')') = true := by
    cases place.type <;> decide
  have hsplit : accessTokens place ++ rest = .mark '*' :: .mark '(' ::
      ((tokens place.type.name ++ [.mark '*']) ++ .mark ')' :: .mark '(' :: .word "buf" ::
        .mark '+' :: .word (toString place.offset) :: .mark ')' :: rest) := by
    simp [accessTokens]
  rw [hsplit, place?, List.dropWhile_append_of_pos htype, List.takeWhile_append_of_pos htype,
    List.dropWhile_cons_of_neg (by simp), List.takeWhile_cons_of_neg (by simp), List.append_nil,
    List.dropLast_concat, type?_tokens]
  simp only [Text.numeral?_toString]
  rfl

theorem integer?_integerTokens (i : Int) : integer? (integerTokens i ++ [.mark ';']) = some i := by
  cases i with
  | ofNat n =>
    simp only [integerTokens, List.singleton_append, integer?, Text.numeral?_toString]
    rfl
  | negSucc n =>
    simp only [integerTokens, List.cons_append, List.nil_append, integer?, Text.numeral?_toString]
    rfl

theorem uncovered_cover (hidden : Bool) (c : Char) (rest : List CToken) :
    uncovered (cover hidden ++ .mark c :: rest) = (hidden, .mark c :: rest) := by
  cases hidden <;> rfl

theorem statement?_allocate (bytes : Nat) (hidden : Bool) :
    statement? (tokens (Statement.allocate bytes hidden).render) =
      some (.allocate bytes hidden) := by
  rw [tokens_allocate, statement?, Forwarder.variableOf?_declaration (by simp) (by decide)
    (by simp) (by simp)]
  simp only [if_true, List.tail_cons, allocation?, uncovered_cover, Text.numeral?_toString]
  rfl

theorem indexOf?_variableName (index : Nat) :
    indexOf? (Statement.variableName index) = some index := by
  rw [indexOf?, Statement.variableName, Forwarder.after?_append]
  exact Text.numeral?_toString index

theorem statement?_load (index : Nat) :
    statement? (tokens (Statement.load index place).render) = some (.load index place) := by
  have htype : ∀ t ∈ tokens place.type.name, t.isOfType = true := by
    cases place.type <;> decide
  have hne : tokens place.type.name ≠ [] ∧
      (tokens place.type.name).head? ≠ some (.word "return") := by
    cases place.type <;> decide
  have hname : Statement.variableName index ≠ "buf" := by
    intro h
    have hhead := congrArg (fun name : String => name.toList.head?) h
    simp [Statement.variableName] at hhead
  rw [tokens_load, statement?, Forwarder.variableOf?_declaration hne.1 htype hne.2 (by simp)]
  simp only [if_neg hname, List.tail_cons, load?, indexOf?_variableName, place?_accessTokens]
  rfl

/-- What is assigned stands behind the first equality sign. -/
theorem content?_accessTokens (content : Value) :
    content? (accessTokens place ++ [.mark '=', .word content.name, .mark ';']) = some content := by
  have haccess : ∀ t ∈ accessTokens place, decide (t ≠ .mark '=') = true := by
    have htype : ∀ t ∈ tokens place.type.name, decide (t ≠ .mark '=') = true := by
      cases place.type <;> decide
    simp only [accessTokens, List.mem_cons, List.mem_append]
    rintro t (rfl | rfl | ht | rfl | rfl | rfl | rfl | rfl | rfl | rfl | ht)
    case inr.inr.inl => exact htype t ht
    all_goals simp_all
  rw [content?, List.dropWhile_append_of_pos haccess, List.dropWhile_cons_of_neg (by simp)]
  cases content <;> rfl

theorem statement?_store (content : Value) :
    statement? (tokens (Statement.store place content).render) = some (.store place content) := by
  have hnone : variableOf? (accessTokens place ++ [.mark '=', .word content.name, .mark ';']) =
      none := by
    simp [variableOf?, accessTokens, CToken.isOfType]
  have hread : command? (accessTokens place ++ [.mark '=', .word content.name, .mark ';']) =
      store? (accessTokens place ++ [.mark '=', .word content.name, .mark ';']) := rfl
  rw [tokens_store, statement?, hnone]
  simp only [hread, store?, place?_accessTokens, content?_accessTokens]
  rfl

theorem statement?_shift (displacement : Int) (hidden : Bool) :
    statement? (tokens (Statement.shift displacement hidden).render) =
      some (.shift displacement hidden) := by
  have hnone : ∀ rest, variableOf? (.word "buf" :: .mark '=' :: rest) = none := fun _ => rfl
  rw [tokens_shift, statement?, hnone]
  simp only [command?, shift?, uncovered_cover, integer?_integerTokens]
  rfl

theorem statement?_check (index : Nat) (expected : Value) :
    statement? (tokens (Statement.check index expected).render) =
      some (.check index expected) := by
  have hnone : ∀ rest, variableOf? (.word "ZASSERT" :: .mark '(' :: rest) = none := fun _ => rfl
  cases expected with
  | hello =>
    rw [tokens_check_hello, statement?, hnone]
    simp only [command?, check?, indexOf?_variableName]
    rfl
  | value =>
    rw [tokens_check_value, statement?, hnone]
    simp only [command?, check?, indexOf?_variableName]
    rfl

/-- A line is read as its statement. -/
theorem statement?_render (statement : Statement) :
    statement? (tokens statement.render) = some statement := by
  cases statement with
  | allocate bytes hidden => exact statement?_allocate bytes hidden
  | store place content => exact statement?_store place content
  | shift displacement hidden => exact statement?_shift displacement hidden
  | load index place => exact statement?_load place index
  | check index expected => exact statement?_check index expected

theorem filterMap_statement? (test : List Statement) :
    (statementTokens test).filterMap statement? = test := by
  induction test with
  | nil => rfl
  | cons statement test ih =>
    rw [statementTokens, List.map_cons, ← statementTokens,
      List.filterMap_cons_some (statement?_render statement), ih]

end

/-! ### Programs of a single test -/

/-- What `main` does in a program of a single test. -/
def singleBody (test : List Statement) : Code :=
  Code.line "init_test();" ++ Program.statements test ++ Code.line "return 0;"

theorem bodyTokens_singleBody (test : List Statement) : bodyTokens (singleBody test) =
    tokens "init_test();" :: (statementTokens test ++ [tokens "return 0;"]) := by
  rw [singleBody, bodyTokens, List.map_append, List.map_append, ← bodyTokens_statements]
  rfl

theorem plainCode_singleBody (test : List Statement) : Forwarder.PlainCode (singleBody test) :=
  Forwarder.plainCode_append.mpr ⟨Forwarder.plainCode_append.mpr
    ⟨Forwarder.plainCode_line.mpr (Forwarder.plain_ofList _ (by decide)),
      plainCode_statements test⟩,
    Forwarder.plainCode_line.mpr (Forwarder.plain_ofList _ (by decide))⟩

theorem exists_functionsFrom_single (test : List Statement) :
    ∃ setUp, functionsFrom (rows (Program.single test).render) =
      [("init_test", setUp), ("main", bodyTokens (singleBody test))] := by
  obtain ⟨setUp, hfunctions⟩ := exists_functionsFrom
    (List.forall_mem_singleton.mpr (congrArg List.length callees_main) :
      ∀ d ∈ [("int main()", singleBody test)], _)
    (List.forall_mem_singleton.mpr (legible_main (plainCode_singleBody test)))
  have hcode : (Program.single test).code = Program.prelude ++
      [("int main()", singleBody test)].flatMap fun d => definition d.1 d.2 := by
    rw [List.flatMap_singleton]
    rfl
  refine ⟨setUp, ?_⟩
  rw [Program.render, hcode, hfunctions, List.flatMap_singleton, callees_main]
  rfl

/-- The statements of a test are read back from its program. -/
theorem testIn_single (test : List Statement) : testIn (Program.single test).render = test := by
  obtain ⟨setUp, hfunctions⟩ := exists_functionsFrom_single test
  have hinit : statement? (tokens "init_test();") = none := by
    rw [tokens_init]
    rfl
  have hreturn : statement? (tokens "return 0;") = none := by
    rw [tokens_return]
    rfl
  rw [testIn, hfunctions, List.filter_cons_of_neg (by simp), List.filter_cons_of_pos (by simp),
    List.filter_nil, List.flatMap_singleton, bodyTokens_singleBody, List.filterMap_cons_none hinit,
    List.filterMap_append, filterMap_statement?, List.filterMap_cons_none hreturn,
    List.filterMap_nil, List.append_nil]

/-! ### Programs of several tests -/

theorem after?_functionName (index : Nat) :
    (after? "test" (Program.functionName index)).isSome = true := by
  rw [Program.functionName, Forwarder.after?_append]
  rfl

/-- The statements of all tests are read back from their program, in the order of the tests. -/
theorem testsIn_several (tests : List (List Statement)) :
    testsIn (Program.several tests).render = tests := by
  obtain ⟨setUp, hfunctions⟩ := exists_functionsFrom_several tests
  have htests : ((tests.mapIdx fun index test =>
      (Program.functionName index, statementTokens test)).filter fun function =>
        (after? "test" function.1).isSome) =
      tests.mapIdx fun index test => (Program.functionName index, statementTokens test) := by
    refine List.filter_eq_self.mpr fun function hfunction => ?_
    obtain ⟨index, _, rfl⟩ := List.mem_mapIdx.mp hfunction
    exact after?_functionName index
  have hothers : (after? "test" "init_test").isSome = false ∧
      (after? "test" "main").isSome = false := by decide
  rw [testsIn, hfunctions, List.cons_append, List.filter_cons_of_neg (by simp [hothers.1]),
    List.filter_append, htests, List.filter_cons_of_neg (by simp [hothers.2]), List.filter_nil,
    List.append_nil]
  refine List.ext_getElem (by simp) fun i _ hi => ?_
  simp [filterMap_statement?]

/-! ### Scenarios -/

section
variable {v : Variant} {f : Field} {l : Layout} {s : Scenario}

/-- A field is known by its type and its offset. -/
theorem field_place (h : f.Accessible v) : f.place.field v.capabilityWidth = f := by
  have hkind := h.kind_eq
  have hsize := h.bytes_eq
  obtain ⟨offset, kind, size⟩ := f
  simp only [Place.field, Field.place, Field.mk.injEq, true_and]
  exact ⟨hkind.symm, hsize⟩

theorem layoutAt_places (h : l.Accessible v) :
    layoutAt v.capabilityWidth (l.fields.map Field.place) = l := by
  have hfields : (l.fields.map Field.place).map (Place.field v.capabilityWidth) = l.fields := by
    rw [List.map_map]
    exact (List.map_congr_left fun f hf => field_place (h f hf)).trans (List.map_id _)
  rw [layoutAt, hfields]

namespace Scenario

/-- What a test writes and reads, by how much it moves the pointer and where the pointer is hidden
is told by its statements. -/
theorem scenario?_body (hw : s.written.Accessible v) (hr : s.read.Accessible v) :
    scenario? v.capabilityWidth s.body = some s := by
  have hshift : s.body.findSome? Statement.shifted? =
      some (s.displacement, s.opacity.second) := by
    have hstores : (s.written.fields.map fun f => Statement.store f.place f.content).findSome?
        Statement.shifted? = none := by simp [Statement.shifted?]
    rw [body, List.findSome?_cons_of_isNone rfl, List.findSome?_append, hstores]
    rfl
  have hstored : s.body.filterMap Statement.stored? = s.written.fields.map Field.place := by
    simp [body, List.filterMap_cons, List.filterMap_map, Function.comp_def, Statement.stored?]
  have hloaded : s.body.filterMap Statement.loaded? = s.read.fields.map Field.place := by
    simp [body, List.filterMap_cons, List.filterMap_map, Function.comp_def, Statement.loaded?]
  have hfirst : s.body.findSome? Statement.allocated? = some s.opacity.first := rfl
  rw [scenario?, hfirst, hshift, hstored, hloaded, layoutAt_places hw, layoutAt_places hr]
  rfl

/-- What a test writes and reads, by how much it moves the pointer and where the pointer is hidden
is read back from its program. -/
theorem scenarioIn_single (hw : s.written.Accessible v) (hr : s.read.Accessible v) :
    scenarioIn v.capabilityWidth (Program.single s.body).render = some s := by
  rw [scenarioIn, testIn_single, scenario?_body hw hr]

end Scenario

end

end TestProgram

end CapFixture
