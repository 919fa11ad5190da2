import Mathlib.Data.List.Nodup
import CapFixture.Proofs.Forwarder.Body
import CapFixture.TestProgram.Program

/-!
# The functions of a program

Which functions a program defines, and which ones a function calls, read off the text. A program of
several tests has one function for each of them, and they are called in their order.

## Main definitions

- `functionsFrom` — the functions in the lines of a text
- `RunsTests` — a text that defines its tests as numbered functions and calls all of them in order
-/

namespace CapFixture.TestProgram

open Forwarder (CToken Row Plain PlainCode Legible callees rowOf rows tokens)

variable {header name text : String} {body : Code} {row : Row} {front rest : List Row}
  {test : List Statement} {statement : Statement} {tests : List (List Statement)}

/-- A brace on a line of its own, where it opens the body of a function. -/
def openingRow : Row := ⟨false, [.mark '{']⟩

/-- The functions with the lines of their bodies, which are indented. The line in front of a body
gives the name, before a parenthesis. -/
def functionsFrom : List Row → List (String × List (List CToken))
  | [] => []
  | row :: rest =>
    if rest.head? = some openingRow then
      (callees row.tokens).head?.toList.map
        (fun name => (name, (rest.tail.takeWhile Row.indented).map Row.tokens)) ++
        functionsFrom rest
    else functionsFrom rest

/-- A function as code, behind the line in front of its body. -/
def definition (header : String) (body : Code) : Code := Code.line header ++ Code.block body

/-- What is read of the lines of a body. -/
def bodyTokens (body : Code) : List (List CToken) := body.map fun l => tokens l.text

/-- What is read of the statements of a test. -/
def statementTokens (test : List Statement) : List (List CToken) :=
  test.map fun statement => tokens statement.render

/-- The functions of a text are one that prepares the tests, one for each test, numbered from zero,
and `main`, which calls each of the others once and in this order. -/
structure RunsTests (text : String) (tests : List (List Statement)) : Prop where
  defines : ∃ setUp main, functionsFrom (rows text) =
      ("init_test", setUp) ::
        (tests.mapIdx fun index test => ("test" ++ toString index, statementTokens test)) ++
        [("main", main)] ∧
    main.flatMap callees =
      "init_test" :: (List.range tests.length).map fun index => "test" ++ toString index
  distinct : ((functionsFrom (rows text)).map Prod.fst).Nodup

/-! ### Runs of lines -/

theorem functionsFrom_cons (h : rest.head? ≠ some openingRow) :
    functionsFrom (row :: rest) = functionsFrom rest := by
  rw [functionsFrom, if_neg h]

theorem functionsFrom_append (hfront : openingRow ∉ front) (hrest : rest.head? ≠ some openingRow) :
    functionsFrom (front ++ rest) = functionsFrom rest := by
  induction front with
  | nil => rfl
  | cons row front ih =>
    rw [List.mem_cons, not_or] at hfront
    rw [List.cons_append, functionsFrom_cons, ih hfront.2]
    cases front with
    | nil => exact hrest
    | cons next front =>
      rw [List.mem_cons, not_or] at hfront
      exact fun h => hfront.2.1 (Option.some.inj h).symm

theorem indented_of_mem_indented (h : row ∈ (Code.indented body).map rowOf) :
    row.indented = true := by
  obtain ⟨l, hl, rfl⟩ := List.mem_map.mp h
  obtain ⟨inner, _, rfl⟩ := List.mem_map.mp hl
  exact decide_eq_true (Nat.succ_pos inner.depth)

theorem functionsFrom_definition (hname : callees (tokens header) = [name])
    (hrest : rest.head? ≠ some openingRow) :
    functionsFrom ((definition header body).map rowOf ++ rest) =
      (name, bodyTokens body) :: functionsFrom rest := by
  have hrows : (definition header body).map rowOf ++ rest =
      rowOf ⟨0, header⟩ :: openingRow ::
        (((Code.indented body).map rowOf ++ [rowOf ⟨0, "\x7d"⟩]) ++ rest) := by
    simp only [definition, Code.block, Code.line, List.map_append, List.map_cons, List.map_nil,
      List.cons_append, List.nil_append, List.append_assoc]
    rfl
  have hbody : ((Code.indented body).map rowOf).map Row.tokens = bodyTokens body := by
    rw [Code.indented, List.map_map, List.map_map]
    rfl
  have hclosed : openingRow ∉ (Code.indented body).map rowOf ++ [rowOf ⟨0, "\x7d"⟩] := by
    rw [List.mem_append, List.mem_singleton, not_or]
    exact ⟨fun h => absurd (indented_of_mem_indented h) (by decide), by decide⟩
  have hafter : functionsFrom (openingRow ::
      (((Code.indented body).map rowOf ++ [rowOf ⟨0, "\x7d"⟩]) ++ rest)) = functionsFrom rest := by
    refine (functionsFrom_cons fun h => hclosed ?_).trans (functionsFrom_append hclosed hrest)
    rw [List.head?_append_of_ne_nil _ (by simp)] at h
    exact List.mem_of_mem_head? h
  -- the body is indented up to the brace that closes it
  have hrun : (((Code.indented body).map rowOf ++ [rowOf ⟨0, "\x7d"⟩]) ++ rest).takeWhile
      Row.indented = (Code.indented body).map rowOf := by
    rw [List.append_assoc, List.takeWhile_append_of_pos fun _ => indented_of_mem_indented,
      List.singleton_append, List.takeWhile_cons_of_neg (by decide), List.append_nil]
  have hheader : (rowOf ⟨0, header⟩).tokens = tokens header := rfl
  rw [hrows, functionsFrom, List.head?_cons, if_pos rfl, hafter, List.tail_cons, hrun, hbody,
    hheader, hname]
  rfl

/-- The functions of a text are its definitions, whatever is declared in front of them. -/
theorem functionsFrom_definitions {definitions : List (String × Code)} (hfront : openingRow ∉ front)
    (hnames : ∀ d ∈ definitions, (callees (tokens d.1)).length = 1) :
    functionsFrom (front ++ (definitions.flatMap fun d => definition d.1 d.2).map rowOf) =
      definitions.flatMap fun d =>
        (callees (tokens d.1)).map fun name => (name, bodyTokens d.2) := by
  -- no definition starts with a brace, as it starts with a name
  have hhead : ∀ definitions : List (String × Code),
      (∀ d ∈ definitions, (callees (tokens d.1)).length = 1) →
      ((definitions.flatMap fun d => definition d.1 d.2).map rowOf).head? ≠ some openingRow := by
    rintro (_ | ⟨⟨header, body⟩, definitions⟩) hnames h
    · cases h
    · have hrow : rowOf ⟨0, header⟩ = openingRow := Option.some.inj h
      have htokens : tokens header = [.mark '{'] := congrArg Row.tokens hrow
      have hname := hnames _ (List.mem_cons_self ..)
      rw [htokens] at hname
      cases hname
  rw [functionsFrom_append hfront (hhead definitions hnames)]
  induction definitions with
  | nil => rfl
  | cons d definitions ih =>
    rw [List.forall_mem_cons] at hnames
    obtain ⟨name, hname⟩ := List.length_eq_one_iff.mp hnames.1
    rw [List.flatMap_cons, List.map_append, functionsFrom_definition hname (hhead _ hnames.2),
      ih hnames.2, List.flatMap_cons, hname]
    rfl

/-! ### Lines of programs -/

theorem plain_toString_int (i : Int) : Plain (toString i) := by
  cases i with
  | ofNat n => exact (Forwarder.oneWord_toString n).plain
  | negSucc n =>
    exact Forwarder.plain_append.mpr
      ⟨Forwarder.plain_ofList _ (by decide), (Forwarder.oneWord_toString (n + 1)).plain⟩

theorem plain_typeName (type : CType) : Plain type.name := by
  cases type <;> exact Forwarder.plain_ofList _ (by decide)

theorem plain_access (place : Place) : Plain (Statement.access place) := by
  unfold Statement.access
  simp only [Forwarder.plain_append, plain_typeName, (Forwarder.oneWord_toString _).plain, and_true]
  and_intros <;> exact Forwarder.plain_ofList _ (by decide)

theorem plain_variableName (index : Nat) : Plain (Statement.variableName index) :=
  Forwarder.plain_append.mpr
    ⟨Forwarder.plain_ofList _ (by decide), (Forwarder.oneWord_toString index).plain⟩

theorem plain_render (statement : Statement) : Plain statement.render := by
  have hhide : ∀ hidden : Bool, Plain (if hidden then "opaque" else "") := by
    intro hidden
    cases hidden <;> exact Forwarder.plain_ofList _ (by decide)
  cases statement with
  | allocate bytes hidden =>
    have htext : (Statement.allocate bytes hidden).render =
        "char* buf = " ++ (if hidden then "opaque" else "") ++ "(malloc(" ++ toString bytes ++
          "));" := rfl
    rw [htext]
    simp only [Forwarder.plain_append, hhide, (Forwarder.oneWord_toString _).plain, and_true]
    and_intros <;> exact Forwarder.plain_ofList _ (by decide)
  | store place content =>
    have hcontent : Plain content.name := by
      cases content <;> exact Forwarder.plain_ofList _ (by decide)
    have htext : (Statement.store place content).render =
        Statement.access place ++ " = " ++ content.name ++ ";" := rfl
    rw [htext]
    simp only [Forwarder.plain_append, plain_access, hcontent, true_and, and_true]
    and_intros <;> exact Forwarder.plain_ofList _ (by decide)
  | shift displacement hidden =>
    have htext : (Statement.shift displacement hidden).render =
        "buf = (char*)" ++ (if hidden then "opaque" else "") ++ "(buf) + " ++
          toString displacement ++ ";" := rfl
    rw [htext]
    simp only [Forwarder.plain_append, hhide, plain_toString_int, and_true]
    and_intros <;> exact Forwarder.plain_ofList _ (by decide)
  | load index place =>
    have htext : (Statement.load index place).render = place.type.name ++ " " ++
        Statement.variableName index ++ " = " ++ Statement.access place ++ ";" := rfl
    rw [htext]
    simp only [Forwarder.plain_append, plain_typeName, plain_variableName, plain_access, true_and,
      and_true]
    and_intros <;> exact Forwarder.plain_ofList _ (by decide)
  | check index expected =>
    cases expected with
    | hello =>
      have htext : (Statement.check index .hello).render =
          "ZASSERT(!strcmp(" ++ Statement.variableName index ++ ", \"hello\"));" := rfl
      rw [htext]
      simp only [Forwarder.plain_append, plain_variableName, and_true]
      and_intros <;> exact Forwarder.plain_ofList _ (by decide)
    | value =>
      have htext : (Statement.check index .value).render =
          "ZASSERT(" ++ Statement.variableName index ++ " == value);" := rfl
      rw [htext]
      simp only [Forwarder.plain_append, plain_variableName, and_true]
      and_intros <;> exact Forwarder.plain_ofList _ (by decide)

theorem plainCode_statements (test : List Statement) : PlainCode (Program.statements test) := by
  intro l hl
  obtain ⟨statement, _, hl⟩ := List.mem_flatMap.mp hl
  obtain rfl := List.mem_singleton.mp hl
  exact plain_render statement

/-- A function stays on its lines if its body does. -/
theorem legible_definition (hheader : ∀ l ∈ Code.line header, Legible l) (hbody : PlainCode body) :
    ∀ l ∈ definition header body, Legible l :=
  List.forall_mem_append.mpr ⟨hheader, Forwarder.legible_block hbody⟩

/-! ### Definitions behind the prelude -/

/-- What stands in front of the definition of `init_test` defines nothing, and all lines of the
prelude are read as they are. -/
theorem exists_prelude : ∃ front body, Program.prelude = front ++
    definition "static void init_test(void)" body ∧ openingRow ∉ front.map rowOf ∧
    ∀ l ∈ Program.prelude, Legible l := by
  have hlegible : ∀ l ∈ Program.prelude,
      '\n' ∉ l.text.toList ∧ (l.depth = 0 → l.text.toList.head? ≠ some ' ') := by decide +kernel
  refine ⟨_, _, List.append_assoc _ (Code.line _) (Code.block _), ?_, fun l hl =>
    ⟨(hlegible l hl).1, (hlegible l hl).2⟩⟩
  decide +kernel

/-- The functions of a program are `init_test` and what is defined behind the prelude. -/
theorem exists_functionsFrom {definitions : List (String × Code)}
    (hnames : ∀ d ∈ definitions, (callees (tokens d.1)).length = 1)
    (hlegible : ∀ d ∈ definitions, ∀ l ∈ definition d.1 d.2, Legible l) :
    ∃ setUp, functionsFrom (rows (Code.render (Program.prelude ++
        definitions.flatMap fun d => definition d.1 d.2))) =
      ("init_test", setUp) :: definitions.flatMap fun d =>
        (callees (tokens d.1)).map fun name => (name, bodyTokens d.2) := by
  obtain ⟨front, setUp, hprelude, hfront, hlines⟩ := exists_prelude
  have hsetUp : callees (tokens "static void init_test(void)") = ["init_test"] := by
    rw [show tokens "static void init_test(void)" = [.word "static", .word "void",
      .word "init_test", .mark '(', .word "void", .mark ')'] from
      (Forwarder.tokens_ofList _).trans (by decide)]
    rfl
  have hall : ∀ d ∈ ("static void init_test(void)", setUp) :: definitions,
      (callees (tokens d.1)).length = 1 :=
    List.forall_mem_cons.mpr ⟨congrArg List.length hsetUp, hnames⟩
  have hcode : ∀ l ∈ Program.prelude ++ definitions.flatMap fun d => definition d.1 d.2,
      Legible l := by
    refine List.forall_mem_append.mpr ⟨hlines, fun l hl => ?_⟩
    obtain ⟨d, hd, hl⟩ := List.mem_flatMap.mp hl
    exact hlegible d hd l hl
  have hfunctions := functionsFrom_definitions hfront hall
  rw [List.flatMap_cons, List.flatMap_cons, hsetUp] at hfunctions
  refine ⟨bodyTokens setUp, ?_⟩
  rw [Forwarder.rows_render hcode, hprelude, List.append_assoc, List.map_append, hfunctions]
  rfl

/-- What `main` does first. -/
theorem tokens_init :
    tokens "init_test();" = [.word "init_test", .mark '(', .mark ')', .mark ';'] :=
  (Forwarder.tokens_ofList _).trans (by decide)

/-- What `main` does last. -/
theorem tokens_return : tokens "return 0;" = [.word "return", .word "0", .mark ';'] :=
  (Forwarder.tokens_ofList _).trans (by decide)

theorem callees_main : callees (tokens "int main()") = ["main"] := by
  rw [show tokens "int main()" = [.word "int", .word "main", .mark '(', .mark ')'] from
    (Forwarder.tokens_ofList _).trans (by decide)]
  rfl

theorem legible_main (h : PlainCode body) : ∀ l ∈ definition "int main()" body, Legible l :=
  legible_definition (Plain.legible_line (Forwarder.plain_ofList _ (by decide)) (by decide)) h

/-! ### Programs of several tests -/

/-- The line in front of the body of a test. -/
def testHeader (index : Nat) : String := "static void " ++ Program.functionName index ++ "(void)"

theorem tokens_functionName (index : Nat) :
    tokens (Program.functionName index) = [.word (Program.functionName index)] :=
  Forwarder.tokens_prefixed (by decide) (Forwarder.oneWord_ofList _ (by decide))
    (Forwarder.oneWord_toString index)

theorem callees_testHeader (index : Nat) :
    callees (tokens (testHeader index)) = [Program.functionName index] := by
  have hstart : tokens "static void " = [.word "static", .word "void"] :=
    (Forwarder.tokens_ofList _).trans (by decide)
  have hend : tokens "(void)" = [.mark '(', .word "void", .mark ')'] :=
    (Forwarder.tokens_ofList _).trans (by decide)
  rw [testHeader, Forwarder.tokens_append_right (by decide),
    Forwarder.tokens_append_left (by decide), hstart, hend, tokens_functionName]
  rfl

theorem callees_call (index : Nat) :
    callees (tokens (Program.functionName index ++ "();")) = [Program.functionName index] := by
  have hend : tokens "();" = [.mark '(', .mark ')', .mark ';'] :=
    (Forwarder.tokens_ofList _).trans (by decide)
  rw [Forwarder.tokens_append_right (by decide), hend, tokens_functionName]
  rfl

/-- What `main` does in a program of several tests. -/
def mainBody (tests : List (List Statement)) : Code :=
  Code.line "init_test();" ++
    (tests.mapIdx fun index _ => Code.line (Program.functionName index ++ "();")).flatten ++
      Code.line "return 0;"

/-- What a program of several tests defines behind its prelude. -/
def severalDefinitions (tests : List (List Statement)) : List (String × Code) :=
  (tests.mapIdx fun index test => (testHeader index, Program.statements test)) ++
    [("int main()", mainBody tests)]

theorem code_several (tests : List (List Statement)) : (Program.several tests).code =
    Program.prelude ++ (severalDefinitions tests).flatMap fun d => definition d.1 d.2 := by
  have hfunctions : tests.mapIdx Program.function = (tests.mapIdx fun index test =>
      (testHeader index, Program.statements test)).map fun d => definition d.1 d.2 := by
    rw [List.mapIdx_eq_zipIdx_map, List.mapIdx_eq_zipIdx_map, List.map_map]
    rfl
  rw [severalDefinitions, List.flatMap_append, List.flatMap_singleton, List.flatMap_def,
    ← hfunctions, ← List.append_assoc]
  rfl

theorem legible_several (tests : List (List Statement)) :
    ∀ d ∈ severalDefinitions tests, ∀ l ∈ definition d.1 d.2, Legible l := by
  have hheader : ∀ index, ∀ l ∈ Code.line (testHeader index), Legible l := by
    intro index
    refine Plain.legible_line ?_ (by simp [testHeader])
    simp only [testHeader, Program.functionName, Forwarder.plain_append,
      (Forwarder.oneWord_toString _).plain, and_true]
    and_intros <;> exact Forwarder.plain_ofList _ (by decide)
  have hcall : ∀ index, Plain (Program.functionName index ++ "();") := by
    intro index
    simp only [Program.functionName, Forwarder.plain_append, (Forwarder.oneWord_toString _).plain,
      and_true]
    and_intros <;> exact Forwarder.plain_ofList _ (by decide)
  have hmain : PlainCode (mainBody tests) := by
    refine Forwarder.plainCode_append.mpr ⟨Forwarder.plainCode_append.mpr ⟨?_, ?_⟩, ?_⟩
    · exact Forwarder.plainCode_line.mpr (Forwarder.plain_ofList _ (by decide))
    · intro l hl
      obtain ⟨code, hcode, hl⟩ := List.mem_flatten.mp hl
      obtain ⟨index, _, rfl⟩ := List.mem_mapIdx.mp hcode
      obtain rfl := List.mem_singleton.mp hl
      exact hcall index
    · exact Forwarder.plainCode_line.mpr (Forwarder.plain_ofList _ (by decide))
  intro d hd
  rcases List.mem_append.mp hd with hd | hd
  · obtain ⟨index, _, rfl⟩ := List.mem_mapIdx.mp hd
    exact legible_definition (hheader index) (plainCode_statements _)
  · obtain rfl := List.mem_singleton.mp hd
    exact legible_main hmain

theorem bodyTokens_statements (test : List Statement) :
    bodyTokens (Program.statements test) = statementTokens test := by
  induction test with
  | nil => rfl
  | cons statement test ih => exact congrArg (tokens statement.render :: ·) ih

theorem flatMap_callees_line (text : String) :
    (bodyTokens (Code.line text)).flatMap callees = callees (tokens text) :=
  List.flatMap_singleton ..

theorem flatMap_callees_append (body rest : Code) : (bodyTokens (body ++ rest)).flatMap callees =
    (bodyTokens body).flatMap callees ++ (bodyTokens rest).flatMap callees := by
  rw [bodyTokens, List.map_append, List.flatMap_append]
  rfl

/-- `main` calls `init_test` and then every test. -/
theorem flatMap_callees_mainBody (tests : List (List Statement)) :
    (bodyTokens (mainBody tests)).flatMap callees =
      "init_test" :: (List.range tests.length).map Program.functionName := by
  have hinit : callees (tokens "init_test();") = ["init_test"] := by
    rw [tokens_init]
    rfl
  have hreturn : callees (tokens "return 0;") = [] := by
    rw [tokens_return]
    rfl
  have hindices : (tests.mapIdx fun index _ => Code.line (Program.functionName index ++ "();")) =
      (List.range tests.length).map fun index =>
        Code.line (Program.functionName index ++ "();") :=
    List.ext_getElem (by simp) (by simp)
  have hcalls : ∀ indices : List Nat, (bodyTokens (indices.map fun index =>
      Code.line (Program.functionName index ++ "();")).flatten).flatMap callees =
        indices.map Program.functionName := by
    intro indices
    induction indices with
    | nil => rfl
    | cons index indices ih =>
      rw [List.map_cons, List.flatten_cons, flatMap_callees_append, ih, flatMap_callees_line,
        callees_call, List.map_cons, List.singleton_append]
  rw [mainBody, hindices, flatMap_callees_append, flatMap_callees_append, hcalls,
    flatMap_callees_line, flatMap_callees_line, hinit, hreturn, List.append_nil,
    List.singleton_append]

theorem nodup_functionNames (count : Nat) :
    ("init_test" :: (List.range count).map Program.functionName ++ ["main"]).Nodup := by
  -- the second letter tells them apart from the others
  have hletters : ∀ index, (Program.functionName index).toList.take 2 = ['t', 'e'] := by
    intro index
    rw [Program.functionName, String.toList_append]
    rfl
  have hother : ∀ name : String, name.toList.take 2 ≠ ['t', 'e'] →
      name ∉ (List.range count).map Program.functionName := by
    intro name hname hmem
    obtain ⟨index, _, rfl⟩ := List.mem_map.mp hmem
    exact hname (hletters index)
  have hinjective : Function.Injective Program.functionName := by
    intro i j h
    have htoList := congrArg String.toList h
    simp only [Program.functionName, String.toList_append] at htoList
    have hdigits := List.append_cancel_left htoList
    exact Text.decimal_injective (by simpa using hdigits)
  rw [List.cons_append, List.nodup_cons, List.nodup_append, List.mem_append, not_or]
  refine ⟨⟨hother _ (by decide), by decide⟩, List.nodup_range.map hinjective,
    List.nodup_singleton _, ?_⟩
  rintro name hname _ hmain rfl
  obtain rfl := List.mem_singleton.mp hmain
  exact hother _ (by decide) hname

theorem exists_functionsFrom_several (tests : List (List Statement)) :
    ∃ setUp, functionsFrom (rows (Program.several tests).render) =
      ("init_test", setUp) ::
        (tests.mapIdx fun index test => (Program.functionName index, statementTokens test)) ++
        [("main", bodyTokens (mainBody tests))] := by
  have hnames : ∀ d ∈ severalDefinitions tests, (callees (tokens d.1)).length = 1 := by
    intro d hd
    rcases List.mem_append.mp hd with hd | hd
    · obtain ⟨index, _, rfl⟩ := List.mem_mapIdx.mp hd
      exact congrArg List.length (callees_testHeader index)
    · obtain rfl := List.mem_singleton.mp hd
      exact congrArg List.length callees_main
  have htests : (tests.mapIdx fun index test =>
      (testHeader index, Program.statements test)).flatMap (fun d =>
        (callees (tokens d.1)).map fun name => (name, bodyTokens d.2)) =
      tests.mapIdx fun index test => (Program.functionName index, statementTokens test) := by
    rw [List.mapIdx_eq_zipIdx_map, List.mapIdx_eq_zipIdx_map, List.flatMap_map,
      List.map_eq_flatMap]
    refine List.flatMap_congr fun p _ => ?_
    rw [callees_testHeader, bodyTokens_statements]
    rfl
  obtain ⟨setUp, hfunctions⟩ := exists_functionsFrom hnames (legible_several tests)
  refine ⟨setUp, ?_⟩
  rw [Program.render, code_several, hfunctions, severalDefinitions, List.flatMap_append, htests,
    List.flatMap_singleton, callees_main]
  rfl

/-- A program of several tests runs all of them. -/
theorem runsTests_several (tests : List (List Statement)) :
    RunsTests (Program.several tests).render tests := by
  obtain ⟨setUp, hfunctions⟩ := exists_functionsFrom_several tests
  refine ⟨⟨setUp, _, hfunctions, flatMap_callees_mainBody tests⟩, ?_⟩
  have hnames : (tests.mapIdx fun index test =>
      (Program.functionName index, statementTokens test)).map Prod.fst =
        (List.range tests.length).map Program.functionName :=
    List.ext_getElem (by simp) (by simp)
  rw [hfunctions, List.map_append, List.map_cons, hnames]
  exact nodup_functionNames tests.length

end CapFixture.TestProgram
