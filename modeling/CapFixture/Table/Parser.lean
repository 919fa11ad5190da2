import CapFixture.Signature
import CapFixture.Table.Lexer
import CapFixture.Text.Lines

/-!
# Reading a signature table

A table is a sequence of declarations `[throws] <type> <name>(<types>);` and of blocks
`if <define> { … }` around further declarations and blocks. The words before the last one of a
declaration are its return type, and an argument list may end with `...`.

## Main definitions

- `Parsed` — a value and the tokens after it, which are fewer than before
- `declaration`, `items` — one declaration, and all up to the end
- `parse` — the signatures of a table
-/

namespace CapFixture.Table

/-- What was read off the front of `input`. -/
structure Parsed (α : Type) (input : List Token) where
  value : α
  rest : List Token
  shorter : rest.length < input.length

/-- The symbols that can stand where something is wanted. -/
def Wanted.accepts : Wanted → Symbol → Bool
  | openBrace, .braceOpen => true
  | openParen, .parenOpen => true
  | separator, .comma => true
  | separator, .parenClose => true
  | semicolon, .semicolon => true
  | _, _ => false

/-- Reads one of the symbols that are wanted. -/
def expect (endLine : Nat) (wanted : Wanted) :
    (ts : List Token) → Except TableError (Parsed Symbol ts)
  | [] => .error (.unexpectedEnd endLine wanted)
  | t :: rest =>
    if wanted.accepts t.symbol then .ok ⟨t.symbol, rest, by simp⟩
    else .error (.unexpected t.span wanted t.symbol)

/-- Reads one identifier. -/
def expectWord (endLine : Nat) (wanted : Wanted) :
    (ts : List Token) → Except TableError (Parsed Word ts)
  | [] => .error (.unexpectedEnd endLine wanted)
  | t :: rest =>
    match t.symbol with
    | .identifier name => .ok ⟨⟨t.span, name⟩, rest, by simp⟩
    | found => .error (.unexpected t.span wanted found)

/-- All identifiers up to the first other token. -/
def leadingWords : List Token → List Word × List Token
  | [] => ([], [])
  | t :: rest =>
    match t.symbol with
    | .identifier name =>
      let (words, rest) := leadingWords rest
      (⟨t.span, name⟩ :: words, rest)
    | _ => ([], t :: rest)

theorem length_leadingWords_le (ts : List Token) :
    (leadingWords ts).2.length ≤ ts.length := by
  induction ts with
  | nil => simp [leadingWords]
  | cons t rest ih =>
    unfold leadingWords
    split
    · simpa using Nat.le_succ_of_le ih
    · simp

/-- Words with single spaces between them. -/
def joinWords (words : List Word) : String := " ".intercalate (words.map Word.name)

/-- The type that the words spell. -/
def resolve (words : List Word) (span : Span) : Except TableError ValueType :=
  match ValueType.ofName? (joinWords words) with
  | some type => .ok type
  | none => .error (.unknownType span (joinWords words))

/-- Reads one argument and where its first token stands, without what follows it. -/
def argument (endLine : Nat) : (ts : List Token) → Except TableError (Parsed (Span × Argument) ts)
  | [] => .error (.unexpectedEnd endLine .argumentType)
  | t :: rest =>
    match t.symbol with
    | .ellipsis => .ok ⟨(t.span, .variadic), rest, by simp⟩
    | .identifier name => do
      let words := leadingWords rest
      let last := words.1.getLast?.getD ⟨t.span, name⟩
      let type ← resolve (⟨t.span, name⟩ :: words.1) (t.span.extend last.span)
      return ⟨(t.span, .value type), words.2, Nat.lt_succ_of_le (length_leadingWords_le rest)⟩
    | found => .error (.unexpected t.span .argumentType found)

/-- Reads arguments up to the closing parenthesis. That one of them follows a variadic one is
seen only after its separator. -/
def argumentsFrom (endLine : Nat) (function : String) (afterVariadic : Bool) (ts : List Token) :
    Except TableError (Parsed (List Argument) ts) := do
  let arg ← argument endLine ts
  let next ← expect endLine .separator arg.rest
  have shorter := Nat.lt_trans next.shorter arg.shorter
  if afterVariadic then throw (.misplacedVariadic arg.value.1 function)
  else if next.value = .parenClose then return ⟨[arg.value.2], next.rest, shorter⟩
  else
    let others ← argumentsFrom endLine function (arg.value.2 = .variadic) next.rest
    return ⟨arg.value.2 :: others.value, others.rest, Nat.lt_trans others.shorter shorter⟩
termination_by ts.length

/-- Reads the arguments after the opening parenthesis. -/
def arguments (endLine : Nat) (function : String) (ts : List Token) :
    Except TableError (Parsed (List Argument) ts) :=
  match ts with
  | ⟨_, .parenClose⟩ :: rest => .ok ⟨[], rest, by simp⟩
  | ts => argumentsFrom endLine function false ts

/-- The return type that the words spell. -/
def resolveResult (words : List Word) (span : Span) : Except TableError Result :=
  if joinWords words = "void" then .ok .void else return .value (← resolve words span)

/-- Reads a declaration, of which the first word is already read. -/
def declaration (endLine : Nat) (defines : List String) (throws : Bool) (first : Word)
    (ts : List Token) : Except TableError (Parsed Signature ts) := do
  let words := leadingWords ts
  match words.1.getLast? with
  | none => throw (.unexpected first.span .returnTypeAndName (.identifier first.name))
  | some name =>
    let result ← resolveResult (first :: words.1.dropLast) (first.span.extend name.span)
    let paren ← expect endLine .openParen words.2
    let args ← arguments endLine name.name paren.rest
    let stop ← expect endLine .semicolon args.rest
    have shorter : stop.rest.length < ts.length := by
      have : words.2.length ≤ ts.length := length_leadingWords_le ts
      have := paren.shorter
      have := args.shorter
      have := stop.shorter
      omega
    return ⟨⟨name.name, result, throws, args.value, defines⟩, stop.rest, shorter⟩

/-- An `if` block that is still open. -/
structure Block where
  span : Span
  define : String
  deriving DecidableEq, Repr

/-- Reads everything up to the end, inside the open blocks, innermost first. -/
def items (endLine : Nat) (blocks : List Block) (ts : List Token) :
    Except TableError (List Signature) := do
  match ts with
  | [] =>
    match blocks with
    | [] => return []
    | block :: _ => throw (.unclosedBlock block.span block.define)
  | t :: rest =>
    match t.symbol with
    | .keywordIf =>
      let define ← expectWord endLine .defineName rest
      let brace ← expect endLine .openBrace define.rest
      have := define.shorter
      have := brace.shorter
      items endLine (⟨t.span.extend define.value.span, define.value.name⟩ :: blocks) brace.rest
    | .braceClose =>
      match blocks with
      | [] => throw (.unexpected t.span .declaration .braceClose)
      | _ :: outer => items endLine outer rest
    | .keywordThrows =>
      let first ← expectWord endLine .returnType rest
      let declared ← declaration endLine (blocks.map Block.define).reverse true first.value
        first.rest
      have := first.shorter
      have := declared.shorter
      return declared.value :: (← items endLine blocks declared.rest)
    | .identifier name =>
      let declared ← declaration endLine (blocks.map Block.define).reverse false ⟨t.span, name⟩ rest
      have := declared.shorter
      return declared.value :: (← items endLine blocks declared.rest)
    | found => throw (.unexpected t.span .declaration found)
termination_by ts.length

/-- The number of the last line, where an empty text has one line. -/
def lastLine (source : String) : Nat := max 1 (Text.lines source.toList).length

/-- The signatures of a table in their order. An unrecognized character comes before every other
error. -/
def parse (source : String) : Except TableError (List Signature) := do
  items (lastLine source) [] (← tokens source)

end CapFixture.Table
