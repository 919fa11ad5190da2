import CapFixture.Record.Number

/-!
# Texts in quotes

A text stands between double quotes, where a backslash starts an escape, or raw between `r`, any
number of `#` and a quote, and a quote with as many `#`. A character stands between single quotes.

## Main definitions

- `escape` — reads an escape
- `text` — reads a text in either form
-/

namespace CapFixture.Record

/-- The character of this code point, if it is one. -/
def charOf? (code : Nat) : Option Char :=
  if code.isValidChar then some (Char.ofNat code) else none

/-- The code point that up to six digits write. -/
def codeOf? (digits : List Char) : Option Nat :=
  if digits.isEmpty || 6 < digits.length || digits.contains '_' then none
  else digits.foldlM (addDigit 16) 0

/-- Reads an escape after its backslash. -/
def escape : List Char → Option (Char × List Char)
  | 'x' :: a :: b :: cs => do
    let code := 16 * (← digitValue? a) + (← digitValue? b)
    return (Char.ofNat code, cs)
  | 'u' :: '{' :: cs => do
    let char ← charOf? (← codeOf? (cs.takeWhile (· != '}')))
    match cs.dropWhile (· != '}') with
    | [] => none
    | _ :: rest => return (char, rest)
  | c :: cs =>
    match c with
    | '0' => some ('\x00', cs)
    | 't' => some ('\t', cs)
    | 'r' => some ('\r', cs)
    | 'n' => some ('\n', cs)
    | '\'' => some ('\'', cs)
    | '"' => some ('"', cs)
    | '\\' => some ('\\', cs)
    | _ => none
  | [] => none

/-- Reads a text up to its closing quote, in as many steps as allowed. -/
def quotedFrom : Nat → List Char → Option (List Char × List Char)
  | 0, _ => none
  | _ + 1, [] => none
  | steps + 1, c :: cs =>
    if c = '"' then some ([], cs)
    else do
      let (char, cs) ← if c = '\\' then escape cs else some (c, cs)
      let (chars, rest) ← quotedFrom steps cs
      return (char :: chars, rest)

/-- Reads a raw text up to a quote and so many `#`. -/
def rawFrom (close : List Char) : List Char → Option (List Char × List Char)
  | [] => none
  | c :: cs =>
    match close.isPrefixOf? (c :: cs) with
    | some rest => some ([], rest)
    | none => do
      let (chars, rest) ← rawFrom close cs
      return (c :: chars, rest)

/-- Reads a text in either form. -/
def text : List Char → Option (List Char × List Char)
  | '"' :: cs => quotedFrom (cs.length + 1) cs
  | 'r' :: cs =>
    let hashes := cs.takeWhile (· == '#')
    match cs.dropWhile (· == '#') with
    | '"' :: cs => rawFrom ('"' :: hashes) cs
    | _ => none
  | _ => none

/-- Reads a character in single quotes and forgets it. -/
def skipChar : List Char → Option (List Char)
  | '\'' :: '\\' :: cs => do
    match ← escape cs with
    | (_, '\'' :: rest) => some rest
    | _ => none
  | '\'' :: c :: '\'' :: rest => if c = '\'' then none else some rest
  | _ => none

end CapFixture.Record
