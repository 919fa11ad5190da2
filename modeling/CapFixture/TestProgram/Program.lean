import CapFixture.Code
import CapFixture.TestProgram.Statement

/-!
# Test programs

A program starts with the same prelude, defines its tests as functions, and runs them from
`main`. A program of a single test has the statements of the test in `main` itself.

## Main definitions

- `Program` — a program in one of the two forms
- `Program.code` — its text
-/

namespace CapFixture.TestProgram

/-- A program, by the statements of its tests. -/
inductive Program where
  /-- One function for each test, all called in order. -/
  | several (tests : List (List Statement))
  | single (test : List Statement)
  deriving DecidableEq, Repr

namespace Program

/-- Picks a fill byte that the pointer `hello` does not contain, so that no pointer read as an
integer, and no integer read as a pointer, equals what it is compared with. -/
def prelude : Code :=
  Code.line "#include <stdfil.h>" ++
  Code.line "#include <inttypes.h>" ++
  Code.line "#include <string.h>" ++
  Code.line "#include <stdlib.h>" ++
  Code.line "#include <stdbool.h>" ++
  Code.line "#include \"utils.h\"" ++
  Code.line "static char* hello = \"hello\";" ++
  Code.line "static unsigned char value;" ++
  Code.line "static void init_test(void)" ++
  Code.block
    (Code.line "unsigned index;" ++
     Code.line "value = 42;" ++
     Code.line "bool good = false;" ++
     Code.line "while (!good) \x7b" ++
     Code.indented
       (Code.line "good = true;" ++
        Code.line "for (index = sizeof(char*); index--;) \x7b" ++
        Code.indented
          (Code.line "if (((char*)&hello)[index] == value) \x7b" ++
           Code.indented (Code.line "good = false;" ++ Code.line "break;") ++
           Code.line "\x7d") ++
        Code.line "\x7d" ++
        Code.line "if (good)" ++
        Code.indented (Code.line "break;") ++
        Code.line "value++;") ++
     Code.line "\x7d")

def statements (test : List Statement) : Code := test.flatMap fun s => Code.line s.render

/-- The name of the function of a test. -/
def functionName (index : Nat) : String := "test" ++ toString index

def function (index : Nat) (test : List Statement) : Code :=
  Code.line ("static void " ++ functionName index ++ "(void)") ++ Code.block (statements test)

/-- The function `main` around what it does. -/
def mainFunction (body : Code) : Code :=
  Code.line "int main()" ++
  Code.block (Code.line "init_test();" ++ body ++ Code.line "return 0;")

def code : Program → Code
  | several tests =>
    prelude ++ (tests.mapIdx function).flatten ++
      mainFunction ((tests.mapIdx fun index _ => Code.line (functionName index ++ "();")).flatten)
  | single test => prelude ++ mainFunction (statements test)

def render (p : Program) : String := p.code.render

end Program

end CapFixture.TestProgram
