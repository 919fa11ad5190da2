import CapFixture.Record.Entries
import CapFixture.Record.Quoted
import CapFixture.Record.Word

/-!
# Values of unknown fields

A field that is not known may have any value: a truth value, an option, a number, a text, a
character, a list, a map, a tuple or another record. It has to be well-formed, and values must not
be nested too deep.
-/

namespace CapFixture.Record

/-- How deep values may be nested in the value of a field. -/
def maxNesting : Nat := 127

/-- The words that are values by themselves. -/
def plainValues : List (List Char) :=
  ["true".toList, "false".toList, "None".toList, "inf".toList, "-inf".toList, "NaN".toList]

/-- Reads a word or `()` that is a value by itself. -/
def skipPlain (cs : List Char) : Option (List Char) :=
  (plainValues.findSome? (keyword · cs)).or ("()".toList.isPrefixOf? cs)

/-- Whether the text after an opening parenthesis starts with a word and a colon. There is no
answer if it ends there. -/
def startsRecord (cs : List Char) : Option Bool := do
  match word (← skipGap cs) with
  | none => return false
  | some (_, rest) =>
    match ← skipGap rest with
    | [] => none
    | c :: _ => return c = ':'

/-- Makes a reader without a result an entry. -/
def ignored (skip : List Char → Option (List Char)) (_ : Unit) (cs : List Char) :
    Option (Unit × List Char) :=
  (skip cs).map fun rest => ((), rest)

/-- Reads a key, a colon and a value. -/
def skipPair (key value : List Char → Option (List Char)) (cs : List Char) :
    Option (List Char) := do
  value (← skipGap (← expect ':' (← skipGap (← key cs))))

def skipWord (cs : List Char) : Option (List Char) := (word cs).map Prod.snd

/-- Reads a list of what `skip` reads, up to the closing character. -/
def skipEntries (close : Char) (skip : List Char → Option (List Char)) (cs : List Char) :
    Option (List Char) :=
  (entries close (ignored skip) () cs).map Prod.snd

/-- Reads a tuple or a record, if there is one. -/
def skipTuple (value : List Char → Option (List Char)) : List Char → Option (List Char)
  | '(' :: cs => do
    if ← startsRecord cs then skipEntries ')' (skipPair skipWord value) cs
    else skipEntries ')' value cs
  | cs => some cs

/-- Reads the rest of an option after its word. Its value stands in parentheses, which may be
left out if so agreed. -/
def skipOption (bare : Bool) (value : List Char → Option (List Char)) (cs : List Char) :
    Option (List Char) := do
  match ← skipGap cs with
  | '(' :: cs =>
    let cs ← skipGap (← value (← skipGap cs))
    match cs with
    | ',' :: cs => expect ')' (← skipGap cs)
    | cs => expect ')' cs
  | cs => if bare then value cs else none

/-- Reads a value, whose parts are read by `nested`. -/
def skipValueWith (bare : Bool) (nested : List Char → Option (List Char)) (cs : List Char) :
    Option (List Char) :=
  if let some rest := keyword "Some".toList cs then skipOption bare nested rest
  else if let some rest := skipPlain cs then some rest
  else if let some (_, rest) := word cs then do skipTuple nested (← skipGap rest)
  else
    match cs with
    | [] => none
    | c :: rest =>
      if c = '(' then skipTuple nested cs
      else if c = '[' then skipEntries ']' nested rest
      else if c = '\x7b' then skipEntries '\x7d' (skipPair nested nested) rest
      else if c.isDigit || c = '+' || c = '-' then skipNumber cs
      else if c = '.' then skipDecimal cs
      else if c = '"' || c = 'r' then (text cs).map Prod.snd
      else if c = '\'' then skipChar cs
      else none

/-- Reads a value with at most so many others around its innermost part. -/
def skipValue (bare : Bool) : Nat → List Char → Option (List Char)
  | 0 => skipValueWith bare fun _ => none
  | depth + 1 => skipValueWith bare (skipValue bare depth)

end CapFixture.Record
