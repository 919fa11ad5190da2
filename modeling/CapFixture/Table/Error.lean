import CapFixture.Table.Token

/-!
# Errors in a signature table
-/

namespace CapFixture.Table

/-- What the table should have gone on with. -/
inductive Wanted where
  | defineName
  | openBrace
  | declaration
  | returnType
  | returnTypeAndName
  | openParen
  | argumentType
  | separator
  | semicolon
  deriving DecidableEq, Repr

def Wanted.describe : Wanted → String
  | defineName => "define name"
  | openBrace => "`\x7b`"
  | declaration => "declaration"
  | returnType => "return type"
  | returnTypeAndName => "return type and name"
  | openParen => "`(`"
  | argumentType => "argument type"
  | separator => "`,` or `)`"
  | semicolon => "`;`"

/-- Why a text is no signature table. -/
inductive TableError where
  | unrecognized (position : Position) (char : Char)
  | unexpected (span : Span) (wanted : Wanted) (found : Symbol)
  /-- The table ends on this line, where more was wanted. -/
  | unexpectedEnd (line : Nat) (wanted : Wanted)
  | unknownType (span : Span) (name : String)
  /-- An argument at this place follows a variadic one. -/
  | misplacedVariadic (span : Span) (function : String)
  | unclosedBlock (span : Span) (define : String)
  deriving DecidableEq, Repr

namespace TableError

def message : TableError → String
  | unrecognized position char =>
    "line " ++ position.render ++ ": unrecognized character '" ++ char.toString ++ "'"
  | unexpected span wanted found =>
    span.render ++ ": expected " ++ wanted.describe ++ ", found " ++ found.describe
  | unexpectedEnd line wanted =>
    "line " ++ toString line ++ ": unexpected end of table, expected " ++ wanted.describe
  | unknownType span name => span.render ++ ": bad type `" ++ name ++ "`"
  | misplacedVariadic span function =>
    span.render ++ ": `...` must be the last argument of `" ++ function ++ "`"
  | unclosedBlock span define => span.render ++ ": `if " ++ define ++ "` block is never closed"

/-- The text that the error is about, unless the text ended too early. -/
def span? : TableError → Option Span
  | unrecognized position _ => some (.single position)
  | unexpected span _ _ => some span
  | unexpectedEnd _ _ => none
  | unknownType span _ => some span
  | misplacedVariadic span _ => some span
  | unclosedBlock span _ => some span

end TableError

end CapFixture.Table
