/-!
# Indented text

Generated text is a list of lines with their indentation, four spaces for each level.
-/

namespace CapFixture

/-- A line and how deep it is indented. -/
structure Line where
  depth : Nat
  text : String
  deriving DecidableEq, Repr, Inhabited

/-- The line with its indentation. -/
def Line.indentedText (l : Line) : String := "".pushn ' ' (4 * l.depth) ++ l.text

/-- The line with its indentation and its newline. -/
def Line.render (l : Line) : String := l.indentedText ++ "\n"

/-- Text, line by line. -/
abbrev Code := List Line

namespace Code

/-- A line that is not indented. -/
def line (text : String) : Code := [⟨0, text⟩]

/-- The lines one level deeper. -/
def indented (c : Code) : Code := c.map fun l => ⟨l.depth + 1, l.text⟩

/-- The lines between braces. -/
def block (body : Code) : Code := line "\x7b" ++ indented body ++ line "\x7d"

def render (c : Code) : String := String.join (c.map Line.render)

end Code

end CapFixture
