import CapFixture.Table.Error
import CapFixture.Text.Blank

/-!
# Lexemes of a signature table

The text of a table falls into gaps and lexemes. A gap is white space and comments, which run from
`#` to the end of the line. A lexeme is a run of identifier characters, a run of dots, or any
other single character. Lexemes that are no token are errors, and the others are unaffected.

## Main definitions

- `lexemes` — the lexemes of a text
- `Lexeme.read` — the token that a lexeme is
- `tokens` — all tokens, or the first error
-/

namespace CapFixture.Table

def isNameStart (c : Char) : Bool := c.isAlpha || c == '_'

def isNameChar (c : Char) : Bool := c.isAlphanum || c == '_'

/-- Whether `c` goes on the lexeme that starts with `first`. -/
def continues (first c : Char) : Bool :=
  if isNameStart first then isNameChar c else first == '.' && c == '.'

/-- Drops the gap at the start, of which a comment may already be open. -/
def skipGap (inComment : Bool) : List Glyph → List Glyph
  | [] => []
  | g :: rest =>
    if inComment then skipGap (g.char != '\n') rest
    else if g.char = '#' then skipGap true rest
    else if Text.isBlank g.char then skipGap false rest
    else g :: rest

theorem length_skipGap_le (inComment : Bool) (gs : List Glyph) :
    (skipGap inComment gs).length ≤ gs.length := by
  induction gs generalizing inComment with
  | nil => simp [skipGap]
  | cons g rest ih =>
    unfold skipGap
    split
    · exact Nat.le_succ_of_le (ih _)
    · split
      · exact Nat.le_succ_of_le (ih _)
      · split
        · exact Nat.le_succ_of_le (ih _)
        · exact Nat.le_refl _

/-- A non-empty run of characters. -/
structure Lexeme where
  first : Glyph
  others : List Glyph
  deriving DecidableEq, Repr, Inhabited

/-- The lexemes between the gaps. -/
def lexemes (gs : List Glyph) : List Lexeme :=
  match _gap : skipGap false gs with
  | [] => []
  | g :: rest =>
    ⟨g, rest.takeWhile (continues g.char ·.char)⟩ ::
      lexemes (rest.dropWhile (continues g.char ·.char))
termination_by gs.length
decreasing_by
  have skipped := length_skipGap_le false gs
  have dropped : (rest.dropWhile (continues g.char ·.char)).length ≤ rest.length :=
    (List.dropWhile_sublist _).length_le
  rw [_gap, List.length_cons] at skipped
  omega

namespace Lexeme

def text (l : Lexeme) : List Char := l.first.char :: l.others.map Glyph.char

def span (l : Lexeme) : Span := ⟨l.first.position, (l.others.getLast?.getD l.first).position⟩

/-- The symbol with this text, if there is one. -/
def symbolOf? (text : List Char) : Option Symbol :=
  match text with
  | ['('] => some .parenOpen
  | [')'] => some .parenClose
  | ['{'] => some .braceOpen
  | ['}'] => some .braceClose
  | [','] => some .comma
  | [';'] => some .semicolon
  | ['.', '.', '.'] => some .ellipsis
  | ['i', 'f'] => some .keywordIf
  | ['t', 'h', 'r', 'o', 'w', 's'] => some .keywordThrows
  | first :: _ => if isNameStart first then some (.identifier (.ofList text)) else none
  | [] => none

/-- The token that the lexeme is. -/
def read (l : Lexeme) : Except TableError Token :=
  match symbolOf? l.text with
  | some symbol => .ok ⟨l.span, symbol⟩
  | none => .error (.unrecognized l.first.position l.first.char)

end Lexeme

/-- What each lexeme of a text is. -/
def readings (source : String) : List (Except TableError Token) :=
  (lexemes (Glyph.locate .start source.toList)).map Lexeme.read

/-- The tokens of a text, or the first lexeme that is none. -/
def tokens (source : String) : Except TableError (List Token) :=
  (lexemes (Glyph.locate .start source.toList)).mapM Lexeme.read

end CapFixture.Table
