/-!
# Words

A word names a field, a type or a value. It may be written raw, as `r#` and characters that a
plain word cannot have.

## Main definitions

- `word` — reads any word
- `keyword` — reads one particular word
-/

namespace CapFixture.Record

def isWordStart (c : Char) : Bool := c.isAlpha || c == '_'

def isWordChar (c : Char) : Bool := c.isAlphanum || c == '_'

def isRawWordChar (c : Char) : Bool := isWordChar c || c == '.' || c == '+' || c == '-'

/-- Whether the text starts with a character of the class. -/
def startsWith (p : Char → Bool) : List Char → Bool
  | [] => false
  | c :: _ => p c

/-- Reads a plain word, which nothing may follow that only a raw word can have. -/
def plainWord (cs : List Char) : Option (List Char × List Char) :=
  let rest := cs.dropWhile isWordChar
  if startsWith isWordStart cs && !startsWith isRawWordChar rest then
    some (cs.takeWhile isWordChar, rest)
  else none

/-- Reads a word. What starts like a raw text is none. -/
def word : List Char → Option (List Char × List Char)
  | ['r'] => none
  | 'r' :: '"' :: _ => none
  | 'r' :: '#' :: cs =>
    if startsWith isRawWordChar cs then
      some (cs.takeWhile isRawWordChar, cs.dropWhile isRawWordChar)
    else none
  | cs => plainWord cs

/-- Reads this word, which no character of a word may follow. -/
def keyword (wanted : List Char) (cs : List Char) : Option (List Char) :=
  match wanted.isPrefixOf? cs with
  | some rest => if startsWith isWordChar rest then none else some rest
  | none => none

end CapFixture.Record
