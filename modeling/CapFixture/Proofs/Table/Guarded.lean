import CapFixture.Proofs.Table.Order
import CapFixture.Table.Parser

/-!
# Reading a table on guard

A reader of tables takes things for granted. A span is extended by one that is not before it, the
words of an argument have a last one, what is taken for a name is an identifier, names are cut out
of the text between characters, and no loop stands still. Here the reader is written as its loops,
over the characters and then over the tokens, and reading stops as soon as one of these fails.

## Main definitions

- `Guarded.Lapse` — what can turn out not to be so
- `Guarded.rounds` — a loop that must get on in each round
- `Guarded.Cursor` — a place in a text, also counted in bytes
- `Guarded.tokens`, `Guarded.items`, `Guarded.parse` — the readers on guard
-/

namespace CapFixture.Table.Guarded

/-- Something that a reader takes for granted and that is not so. -/
inductive Lapse where
  /-- A span is extended by one that starts or stops before it. -/
  | disordered (span other : Span)
  /-- The last one of no words is looked up. -/
  | noWords
  /-- What is taken for a name is no identifier. -/
  | noIdentifier (symbol : Symbol)
  /-- A slice of a text starts or stops inside a character, or stops before it starts. -/
  | split (start stop : Nat)
  /-- A round of a loop leaves as much to read as there was. -/
  | standstill
  deriving DecidableEq, Repr

/-- Why a reader stops. -/
inductive Stop where
  | lapse (lapse : Lapse)
  | rejected (error : TableError)
  deriving DecidableEq, Repr

/-- How a round of a loop ends. -/
inductive Round (σ α : Type) where
  | next (state : σ)
  | last (result : α)

variable {σ α : Type}

/-- A loop runs rounds until the last one. Every other round leaves less to read. -/
def rounds (left : σ → Nat) (round : σ → Except Stop (Round σ α)) (s : σ) : Except Stop α := do
  match ← round s with
  | .last a => return a
  | .next t => if left t < left s then rounds left round t else throw (.lapse .standstill)
termination_by left s

/-- What a reader without loops gives, which has no lapses. -/
def lift (result : Except TableError α) : Except Stop α := result.mapError .rejected

/-- From the start of the one span to the end of the other, which must not be before it. -/
def extend (s t : Span) : Except Stop Span :=
  if s.UpTo t then return s.extend t else throw (.lapse (.disordered s t))

/-- The part of a text from one byte up to another, where both must stand between characters. -/
def slice (source : String) (start stop : Nat) : Except Stop String :=
  if start ≤ stop ∧ String.Pos.Raw.IsValid source ⟨start⟩ ∧ String.Pos.Raw.IsValid source ⟨stop⟩
  then return String.Pos.Raw.extract source ⟨start⟩ ⟨stop⟩
  else throw (.lapse (.split start stop))

/-! ### Characters -/

/-- A place in a text: what follows it, its line and column, and how many bytes precede it. -/
structure Cursor where
  rest : List Char
  position : Position
  offset : Nat
  deriving DecidableEq, Repr

namespace Cursor

def start (source : String) : Cursor := ⟨source.toList, .start, 0⟩

/-- The next character and the place behind it. -/
def advance? (s : Cursor) : Option (Char × Cursor) :=
  match s.rest with
  | [] => none
  | c :: rest => some (c, ⟨rest, s.position.after c, s.offset + c.utf8Size⟩)

end Cursor

/-- Reads one character, if it is one of the run. The position is that of the last character. -/
def runRound (p : Char → Bool) : Position × Cursor →
    Except Stop (Round (Position × Cursor) (Position × Cursor))
  | (last, s) =>
    match s.advance? with
    | none => return .last (last, s)
    | some (c, t) => if p c then return .next (s.position, t) else return .last (last, s)

/-- Reads a run of characters, and tells where the last one stands, or `last` if there is none. -/
def readWhile (p : Char → Bool) (last : Position) (s : Cursor) : Except Stop (Position × Cursor) :=
  rounds (·.2.rest.length) (runRound p) (last, s)

/-- Skips a comment or a blank, if there is one. -/
def gapRound (s : Cursor) : Except Stop (Round Cursor Cursor) := do
  match s.advance? with
  | none => return .last s
  | some (c, t) =>
    if c = '#' then return .next (← readWhile (· != '\n') s.position s).2
    else if Text.isBlank c then return .next t
    else return .last s

/-- Goes behind white space and comments. -/
def skipGap : Cursor → Except Stop Cursor := rounds (·.rest.length) gapRound

/-- The symbol that a run of name characters is. -/
def symbolOfName (name : String) : Symbol :=
  if name = "if" then .keywordIf
  else if name = "throws" then .keywordThrows
  else .identifier name

/-- The symbol that a character is on its own. -/
def symbolOfChar? : Char → Option Symbol
  | '(' => some .parenOpen
  | ')' => some .parenClose
  | '\x7b' => some .braceOpen
  | '\x7d' => some .braceClose
  | ',' => some .comma
  | ';' => some .semicolon
  | _ => none

/-- Reads the token that starts at the place with the character, behind which it goes on. -/
def tokenAt (source : String) (s : Cursor) (c : Char) (t : Cursor) :
    Except Stop (Token × Cursor) := do
  if isNameStart c then
    let (stop, u) ← readWhile isNameChar s.position t
    let name ← slice source s.offset u.offset
    return (⟨⟨s.position, stop⟩, symbolOfName name⟩, u)
  else if c = '.' then
    let (stop, u) ← readWhile (· == '.') s.position t
    if u.offset - s.offset ≠ 3 then throw (.rejected (.unrecognized s.position c))
    else return (⟨⟨s.position, stop⟩, .ellipsis⟩, u)
  else
    match symbolOfChar? c with
    | some symbol => return (⟨.single s.position, symbol⟩, t)
    | none => throw (.rejected (.unrecognized s.position c))

/-- Reads the next token, if there is one. -/
def token? (source : String) (s : Cursor) : Except Stop (Option (Token × Cursor)) := do
  let s ← skipGap s
  match s.advance? with
  | none => return none
  | some (c, t) => return some (← tokenAt source s c t)

def tokenRound (source : String) :
    List Token × Cursor → Except Stop (Round (List Token × Cursor) (List Token))
  | (read, s) => do
    match ← token? source s with
    | none => return .last read
    | some (t, s) => return .next (read ++ [t], s)

/-- Reads all tokens. -/
def tokens (source : String) : Except Stop (List Token) :=
  rounds (·.2.rest.length) (tokenRound source) ([], .start source)

/-! ### Tokens -/

variable (endLine : Nat)

/-- Reads a token that is one of those that are wanted. -/
def expect (wanted : Wanted) (accepts : Symbol → Bool) :
    List Token → Except Stop (Token × List Token)
  | [] => throw (.rejected (.unexpectedEnd endLine wanted))
  | t :: rest =>
    if accepts t.symbol then return (t, rest)
    else throw (.rejected (.unexpected t.span wanted t.symbol))

def isIdentifier : Symbol → Bool
  | .identifier _ => true
  | _ => false

def wordRound : List Word × List Token →
    Except Stop (Round (List Word × List Token) (List Word × List Token))
  | (words, ⟨span, .identifier name⟩ :: rest) => return .next (words ++ [⟨span, name⟩], rest)
  | (words, ts) => return .last (words, ts)

/-- The first token if it is a word, and all words that follow it. -/
def words (first : Token) (ts : List Token) : Except Stop (List Word × List Token) :=
  rounds (·.2.length) wordRound
    (match first with
    | ⟨span, .identifier name⟩ => ([⟨span, name⟩], ts)
    | _ => ([], ts))

/-- The type that the words from the first token on spell. -/
def argumentType (first : Token) (ts : List Token) : Except Stop (ValueType × List Token) := do
  let (words, ts) ← words first ts
  match words[words.length - 1]? with
  | none => throw (.lapse .noWords)
  | some last =>
    let span ← extend first.span last.span
    return (← lift (resolve words span), ts)

/-- Reads one argument and where its first token stands, without what follows it. -/
def argument (ts : List Token) : Except Stop ((Span × Argument) × List Token) := do
  let (first, ts) ← expect endLine .argumentType (fun s => isIdentifier s || s = .ellipsis) ts
  if first.symbol = .ellipsis then return ((first.span, .variadic), ts)
  else
    let (type, ts) ← argumentType first ts
    return ((first.span, .value type), ts)

/-- Reads one argument and what separates it from the next one. -/
def argumentRound (function : String) : List Argument × List Token →
    Except Stop (Round (List Argument × List Token) (List Argument × List Token))
  | (read, ts) => do
    let (arg, ts) ← argument endLine ts
    let (separator, ts) ← expect endLine .separator (Wanted.accepts .separator) ts
    if read.getLast? = some .variadic then
      throw (.rejected (.misplacedVariadic arg.1 function))
    else if separator.symbol = .parenClose then return .last (read ++ [arg.2], ts)
    else return .next (read ++ [arg.2], ts)

/-- Reads the arguments after the opening parenthesis. -/
def arguments (function : String) (ts : List Token) : Except Stop (List Argument × List Token) :=
  match ts with
  | ⟨_, .parenClose⟩ :: rest => return ([], rest)
  | ts => rounds (·.2.length) (argumentRound endLine function) ([], ts)

/-- The return type that the words up to the name spell. -/
def result (first : Token) (words : List Word) (name : Word) : Except Stop Result := do
  if joinWords words = "void" then return .void
  else
    let span ← extend first.span name.span
    return .value (← lift (resolve words span))

/-- Reads a declaration from its first word on. -/
def declaration (defines : List String) (throws : Bool) (first : Token) (ts : List Token) :
    Except Stop (Signature × List Token) := do
  let (words, ts) ← words first ts
  match words.getLast? with
  | none => throw (.rejected (.unexpected first.span .returnTypeAndName first.symbol))
  | some name =>
    if words.dropLast = [] then
      throw (.rejected (.unexpected first.span .returnTypeAndName first.symbol))
    else
      let result ← result first words.dropLast name
      let (_, ts) ← expect endLine .openParen (Wanted.accepts .openParen) ts
      let (args, ts) ← arguments endLine name.name ts
      let (_, ts) ← expect endLine .semicolon (Wanted.accepts .semicolon) ts
      return (⟨name.name, result, throws, args, defines⟩, ts)

/-- What has been read of a table: the signatures, and the blocks that are open, innermost
first. -/
structure Progress where
  signatures : List Signature
  blocks : List Block
  rest : List Token

/-- Reads the start of a block behind its keyword. -/
def openBlock (signatures : List Signature) (blocks : List Block) (first : Token)
    (ts : List Token) : Except Stop Progress := do
  let (define, ts) ← expect endLine .defineName isIdentifier ts
  match define.symbol with
  | .identifier name =>
    let (_, ts) ← expect endLine .openBrace (Wanted.accepts .openBrace) ts
    let span ← extend first.span define.span
    return ⟨signatures, ⟨span, name⟩ :: blocks, ts⟩
  | other => throw (.lapse (.noIdentifier other))

/-- Reads a declaration behind those that have been read. -/
def nextDeclaration (signatures : List Signature) (blocks : List Block) (throws : Bool)
    (first : Token) (ts : List Token) : Except Stop Progress := do
  let (signature, ts) ←
    declaration endLine (blocks.map Block.define).reverse throws first ts
  return ⟨signatures ++ [signature], blocks, ts⟩

/-- Reads the block start, the block end or the declaration that starts with the token. -/
def item (signatures : List Signature) (blocks : List Block) (first : Token) (ts : List Token) :
    Except Stop Progress :=
  match first.symbol, blocks with
  | .keywordIf, _ => openBlock endLine signatures blocks first ts
  | .braceClose, _ :: outer => return ⟨signatures, outer, ts⟩
  | .keywordThrows, _ => do
    let (first, ts) ← expect endLine .returnType isIdentifier ts
    nextDeclaration endLine signatures blocks true first ts
  | .identifier _, _ => nextDeclaration endLine signatures blocks false first ts
  | other, _ => throw (.rejected (.unexpected first.span .declaration other))

def itemRound : Progress → Except Stop (Round Progress (List Signature))
  | ⟨signatures, [], []⟩ => return .last signatures
  | ⟨_, block :: _, []⟩ => throw (.rejected (.unclosedBlock block.span block.define))
  | ⟨signatures, blocks, t :: rest⟩ => return .next (← item endLine signatures blocks t rest)

/-- Reads everything up to the end. -/
def items (ts : List Token) : Except Stop (List Signature) :=
  rounds (·.rest.length) (itemRound endLine) ⟨[], [], ts⟩

/-- The signatures of a table. -/
def parse (source : String) : Except Stop (List Signature) := do
  items (lastLine source) (← tokens source)

end CapFixture.Table.Guarded
