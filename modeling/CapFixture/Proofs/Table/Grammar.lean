import CapFixture.Table.Parser

/-!
# The grammar of signature tables

Which symbols spell which signatures. The grammar is stated on symbols only, without positions and
without the reader: a table is a sequence of declarations and of `if` blocks around tables.

## Main definitions

- `DerivesArguments` — what stands between the parentheses of a declaration
- `DerivesDeclaration` — one declaration up to its semicolon
- `Derives` — a whole table, inside the blocks of some symbols
-/

namespace CapFixture.Table

/-- The names as identifiers. -/
def identifiers (names : List String) : List Symbol := names.map .identifier

/-- One argument: words that spell a type with single spaces between them, or an ellipsis. -/
inductive DerivesArgument : List Symbol → Argument → Prop where
  | value {names : List String} {type : ValueType} (nonempty : names ≠ [])
      (spelled : " ".intercalate names = type.name) :
      DerivesArgument (identifiers names) (.value type)
  | variadic : DerivesArgument [.ellipsis] .variadic

/-- Arguments with commas between them, of which only the last one may be variadic. -/
inductive DerivesSeparated : List Symbol → List Argument → Prop where
  | last {symbols : List Symbol} {arg : Argument} (arg_derives : DerivesArgument symbols arg) :
      DerivesSeparated symbols [arg]
  | more {symbols rest : List Symbol} {type : ValueType} {args : List Argument}
      (arg_derives : DerivesArgument symbols (.value type))
      (rest_derives : DerivesSeparated rest args) :
      DerivesSeparated (symbols ++ .comma :: rest) (.value type :: args)

/-- What may stand between the parentheses. -/
inductive DerivesArguments : List Symbol → List Argument → Prop where
  | none : DerivesArguments [] []
  | some {symbols : List Symbol} {args : List Argument}
      (separated : DerivesSeparated symbols args) : DerivesArguments symbols args

/-- The keyword in front of a declaration that can throw. -/
def throwsMark (throws : Bool) : List Symbol := if throws then [.keywordThrows] else []

/-- A declaration inside the blocks of `defines`. The words before its name spell what it
returns. -/
inductive DerivesDeclaration (defines : List String) : List Symbol → Signature → Prop where
  | intro {throws : Bool} {names : List String} {name : String} {result : Result}
      {symbols : List Symbol} {args : List Argument} (nonempty : names ≠ [])
      (spelled : " ".intercalate names = result.name)
      (args_derive : DerivesArguments symbols args) :
      DerivesDeclaration defines
        (throwsMark throws ++ (identifiers (names ++ [name]) ++
          .parenOpen :: (symbols ++ [.parenClose, .semicolon])))
        ⟨name, result, throws, args, defines⟩

/-- A table inside the blocks of `defines`, outermost first. -/
inductive Derives : List String → List Symbol → List Signature → Prop where
  | nil {defines : List String} : Derives defines [] []
  | block {defines : List String} {define : String} {body rest : List Symbol}
      {inner outer : List Signature} (body_derives : Derives (defines ++ [define]) body inner)
      (rest_derives : Derives defines rest outer) :
      Derives defines
        (.keywordIf :: .identifier define :: .braceOpen :: (body ++ .braceClose :: rest))
        (inner ++ outer)
  | declaration {defines : List String} {symbols rest : List Symbol} {signature : Signature}
      {signatures : List Signature} (first_derives : DerivesDeclaration defines symbols signature)
      (rest_derives : Derives defines rest signatures) :
      Derives defines (symbols ++ rest) (signature :: signatures)

end CapFixture.Table
