import CapFixture.Source

/-!
# Tokens of a signature table
-/

namespace CapFixture.Table

/-- What a token is. -/
inductive Symbol where
  | keywordIf
  | keywordThrows
  | identifier (name : String)
  | ellipsis
  | parenOpen
  | parenClose
  | braceOpen
  | braceClose
  | comma
  | semicolon
  deriving DecidableEq, Repr, Inhabited

/-- How messages name a token. -/
def Symbol.describe : Symbol → String
  | keywordIf => "`if`"
  | keywordThrows => "`throws`"
  | identifier _ => "identifier"
  | ellipsis => "`...`"
  | parenOpen => "`(`"
  | parenClose => "`)`"
  | braceOpen => "`\x7b`"
  | braceClose => "`\x7d`"
  | comma => "`,`"
  | semicolon => "`;`"

/-- A symbol and the text that it stands for. -/
structure Token where
  span : Span
  symbol : Symbol
  deriving DecidableEq, Repr, Inhabited

/-- An identifier and where it stands. -/
structure Word where
  span : Span
  name : String
  deriving DecidableEq, Repr, Inhabited

end CapFixture.Table
