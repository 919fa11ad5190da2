import CapFixture.Proofs.Table.Parsing
import CapFixture.Proofs.Table.Spacing

/-!
# Places do not matter

What a reader makes of its tokens depends on their symbols alone: where the tokens stand elsewhere,
it reads the same, or reports the same error elsewhere. So the gaps of a table can be replaced.

## Main definitions

- `TableError.Agrees` — the same error, wherever it is
- `SameOutcome` — related results, or the same error, wherever it is
- `SameSymbols` — the same tokens, wherever they stand
-/

namespace CapFixture.Table

variable {α β : Type}

/-- The same error, wherever it is. -/
inductive TableError.Agrees : TableError → TableError → Prop where
  | unrecognized (p q : Position) (char : Char) :
      Agrees (.unrecognized p char) (.unrecognized q char)
  | unexpected (s t : Span) (wanted : Wanted) (found : Symbol) :
      Agrees (.unexpected s wanted found) (.unexpected t wanted found)
  | unexpectedEnd (m n : Nat) (wanted : Wanted) :
      Agrees (.unexpectedEnd m wanted) (.unexpectedEnd n wanted)
  | unknownType (s t : Span) (name : String) : Agrees (.unknownType s name) (.unknownType t name)
  | misplacedVariadic (s t : Span) (function : String) :
      Agrees (.misplacedVariadic s function) (.misplacedVariadic t function)
  | unclosedBlock (s t : Span) (define : String) :
      Agrees (.unclosedBlock s define) (.unclosedBlock t define)

/-- Two readers both give results, which are related, or both the same error. -/
inductive SameOutcome (R : α → β → Prop) : Except TableError α → Except TableError β → Prop where
  | ok {a : α} {b : β} (related : R a b) : SameOutcome R (.ok a) (.ok b)
  | error {e e' : TableError} (agrees : e.Agrees e') : SameOutcome R (.error e) (.error e')

/-- Readers that go on in the same way from related results. -/
theorem SameOutcome.bind {α' β' : Type} {R : α → β → Prop} {S : α' → β' → Prop}
    {x : Except TableError α} {y : Except TableError β} {f : α → Except TableError α'}
    {g : β → Except TableError β'} (h : SameOutcome R x y)
    (hnext : ∀ a b, R a b → SameOutcome S (f a) (g b)) : SameOutcome S (x >>= f) (y >>= g) := by
  cases h with
  | ok related => exact hnext _ _ related
  | error agrees => exact .error agrees

/-- The same tokens, wherever they stand. -/
def SameSymbols (ts ts' : List Token) : Prop :=
  List.Forall₂ (fun t t' => t.symbol = t'.symbol) ts ts'

/-- The same is left, and what counts of the values is the same. -/
structure Parsed.Alike (part : α → β) {ts ts' : List Token} (p : Parsed α ts)
    (p' : Parsed α ts') : Prop where
  value : part p.value = part p'.value
  rest : SameSymbols p.rest p'.rest

section
variable {endLine endLine' : Nat} {ts ts' : List Token}

/-! ### Single tokens and runs of words -/

theorem expect_same (wanted : Wanted) (h : SameSymbols ts ts') :
    SameOutcome (Parsed.Alike id) (expect endLine wanted ts) (expect endLine' wanted ts') := by
  cases h with
  | nil => exact .error (.unexpectedEnd ..)
  | @cons t t' rest rest' ht hrest =>
    rw [expect, expect, ← ht]
    by_cases ha : wanted.accepts t.symbol = true
    · rw [if_pos ha, if_pos ha]
      exact .ok ⟨rfl, hrest⟩
    · rw [if_neg ha, if_neg ha]
      exact .error (.unexpected ..)

theorem expectWord_same (wanted : Wanted) (h : SameSymbols ts ts') :
    SameOutcome (Parsed.Alike Word.name) (expectWord endLine wanted ts)
      (expectWord endLine' wanted ts') := by
  cases h with
  | nil => exact .error (.unexpectedEnd ..)
  | @cons t t' rest rest' ht hrest =>
    obtain ⟨span, symbol⟩ := t
    obtain ⟨span', _⟩ := t'
    cases ht
    cases symbol with
    | identifier name => exact .ok ⟨rfl, hrest⟩
    | _ => exact .error (.unexpected ..)

theorem leadingWords_same (h : SameSymbols ts ts') :
    (leadingWords ts).1.map Word.name = (leadingWords ts').1.map Word.name ∧
      SameSymbols (leadingWords ts).2 (leadingWords ts').2 := by
  induction h with
  | nil => exact ⟨rfl, .nil⟩
  | @cons t t' rest rest' ht hrest ih =>
    obtain ⟨span, symbol⟩ := t
    obtain ⟨span', _⟩ := t'
    cases ht
    cases symbol with
    | identifier name => exact ⟨congrArg (name :: ·) ih.1, ih.2⟩
    | _ => exact ⟨rfl, .cons rfl hrest⟩

/-! ### Types -/

theorem resolve_same {words words' : List Word} (s s' : Span)
    (h : words.map Word.name = words'.map Word.name) :
    SameOutcome Eq (resolve words s) (resolve words' s') := by
  unfold resolve joinWords
  rw [← h]
  cases ValueType.ofName? (" ".intercalate (words.map Word.name)) with
  | none => exact .error (.unknownType ..)
  | some type => exact .ok rfl

theorem resolveResult_same {words words' : List Word} (s s' : Span)
    (h : words.map Word.name = words'.map Word.name) :
    SameOutcome Eq (resolveResult words s) (resolveResult words' s') := by
  have hjoin : joinWords words' = joinWords words := by
    unfold joinWords
    rw [h]
  unfold resolveResult
  rw [hjoin]
  by_cases hv : joinWords words = "void"
  · rw [if_pos hv, if_pos hv]
    exact .ok rfl
  · rw [if_neg hv, if_neg hv]
    refine (resolve_same s s' h).bind ?_
    rintro type _ rfl
    exact .ok rfl

/-! ### Arguments -/

theorem argument_same (h : SameSymbols ts ts') :
    SameOutcome (Parsed.Alike Prod.snd) (argument endLine ts) (argument endLine' ts') := by
  cases h with
  | nil => exact .error (.unexpectedEnd ..)
  | @cons t t' rest rest' ht hrest =>
    obtain ⟨span, symbol⟩ := t
    obtain ⟨span', _⟩ := t'
    cases ht
    cases symbol with
    | ellipsis => exact .ok ⟨rfl, hrest⟩
    | identifier name =>
      obtain ⟨hwords, hafter⟩ := leadingWords_same hrest
      have hnames : (Word.mk span name :: (leadingWords rest).1).map Word.name =
          (Word.mk span' name :: (leadingWords rest').1).map Word.name :=
        congrArg (name :: ·) hwords
      refine (resolve_same _ _ hnames).bind ?_
      rintro type _ rfl
      exact .ok ⟨rfl, hafter⟩
    | _ => exact .error (.unexpected ..)

theorem argumentsFrom_same (function : String) (afterVariadic : Bool) (h : SameSymbols ts ts') :
    SameOutcome (Parsed.Alike id) (argumentsFrom endLine function afterVariadic ts)
      (argumentsFrom endLine' function afterVariadic ts') := by
  induction afterVariadic, ts using argumentsFrom.induct generalizing ts' with
  | case1 afterVariadic ts ih =>
    rw [argumentsFrom, argumentsFrom]
    refine (argument_same h).bind fun arg arg' harg => ?_
    refine (expect_same .separator harg.rest).bind fun next next' hnext => ?_
    -- both have read the separator when they see that the argument is misplaced
    have hsymbol : next.value = next'.value := hnext.value
    rw [← hsymbol, ← harg.value]
    by_cases hv : afterVariadic = true
    · rw [if_pos hv, if_pos hv]
      exact .error (.misplacedVariadic ..)
    · rw [if_neg hv, if_neg hv]
      by_cases hclose : next.value = .parenClose
      · rw [if_pos hclose, if_pos hclose]
        exact .ok ⟨rfl, hnext.rest⟩
      · rw [if_neg hclose, if_neg hclose]
        refine (ih arg next hnext.rest).bind fun others others' hothers => ?_
        exact .ok ⟨congrArg (arg.value.2 :: ·) hothers.value, hothers.rest⟩

theorem arguments_same (function : String) (h : SameSymbols ts ts') :
    SameOutcome (Parsed.Alike id) (arguments endLine function ts)
      (arguments endLine' function ts') := by
  -- whatever does not close the list at once is left to the other reader
  have hfrom : SameOutcome (Parsed.Alike id) (argumentsFrom endLine function false ts)
      (argumentsFrom endLine' function false ts') := argumentsFrom_same function false h
  cases h with
  | nil => exact hfrom
  | @cons t t' rest rest' ht hrest =>
    obtain ⟨span, symbol⟩ := t
    obtain ⟨span', _⟩ := t'
    cases ht
    cases symbol with
    | parenClose => exact .ok ⟨rfl, hrest⟩
    | _ => exact hfrom

/-! ### Declarations and blocks -/

theorem declaration_same (defines : List String) (throws : Bool) {first first' : Word}
    (hfirst : first.name = first'.name) (h : SameSymbols ts ts') :
    SameOutcome (Parsed.Alike id) (declaration endLine defines throws first ts)
      (declaration endLine' defines throws first' ts') := by
  obtain ⟨hwords, hafter⟩ := leadingWords_same h
  have hlast : (leadingWords ts).1.getLast?.map Word.name =
      (leadingWords ts').1.getLast?.map Word.name := by
    rw [← List.getLast?_map, ← List.getLast?_map, hwords]
  have hothers : (first :: (leadingWords ts).1.dropLast).map Word.name =
      (first' :: (leadingWords ts').1.dropLast).map Word.name := by
    rw [List.map_cons, List.map_cons, List.map_dropLast, List.map_dropLast, hwords, hfirst]
  unfold declaration
  dsimp only
  cases hname : (leadingWords ts).1.getLast? with
  | none =>
    rw [hname, eq_comm, Option.map_none, Option.map_eq_none_iff] at hlast
    rw [hlast, ← hfirst]
    exact .error (.unexpected ..)
  | some name =>
    rw [hname, eq_comm, Option.map_some, Option.map_eq_some_iff] at hlast
    obtain ⟨name', hname', hsame⟩ := hlast
    rw [hname']
    dsimp only
    rw [← hsame]
    refine (resolveResult_same _ _ hothers).bind ?_
    rintro result _ rfl
    refine (expect_same .openParen hafter).bind fun paren paren' hparen => ?_
    refine (arguments_same name'.name hparen.rest).bind fun args args' hargs => ?_
    refine (expect_same .semicolon hargs.rest).bind fun stop stop' hstop => ?_
    have hvalue : args.value = args'.value := hargs.value
    refine .ok ⟨?_, hstop.rest⟩
    simp only [id, hvalue]

theorem items_same {blocks blocks' : List Block}
    (hblocks : blocks.map Block.define = blocks'.map Block.define) (h : SameSymbols ts ts') :
    SameOutcome Eq (items endLine blocks ts) (items endLine' blocks' ts') := by
  -- each symbol leads to the same branch, and what it opens or closes is the same
  induction blocks, ts using items.induct generalizing blocks' ts' with
  | case1 =>
    cases h
    cases List.map_eq_nil_iff.mp hblocks.symm
    rw [items, items]
    exact .ok rfl
  | case2 block tail =>
    cases h
    obtain ⟨block', tail', rfl, hdefine, -⟩ := List.map_eq_cons_iff.mp hblocks.symm
    rw [items, items, hdefine]
    exact .error (.unclosedBlock ..)
  | case3 blocks t rest ht ih =>
    cases h with | @cons _ t' _ rest' hsymbol hrest =>
    rw [items_keywordIf ht, items_keywordIf (hsymbol ▸ ht)]
    refine (expectWord_same .defineName hrest).bind fun define define' hdefine => ?_
    refine (expect_same .openBrace hdefine.rest).bind fun brace brace' hbrace => ?_
    refine ih define brace ?_ hbrace.rest
    rw [List.map_cons, List.map_cons, hblocks, hdefine.value]
  | case4 t rest ht =>
    cases h with | @cons _ t' _ rest' hsymbol hrest =>
    cases List.map_eq_nil_iff.mp hblocks.symm
    rw [items_braceClose_outside ht, items_braceClose_outside (hsymbol ▸ ht)]
    exact .error (.unexpected ..)
  | case5 t rest ht block tail ih =>
    cases h with | @cons _ t' _ rest' hsymbol hrest =>
    obtain ⟨block', tail', rfl, -, htail⟩ := List.map_eq_cons_iff.mp hblocks.symm
    rw [items_braceClose ht, items_braceClose (hsymbol ▸ ht)]
    exact ih htail.symm hrest
  | case6 blocks t rest ht ih =>
    cases h with | @cons _ t' _ rest' hsymbol hrest =>
    rw [items_keywordThrows ht, items_keywordThrows (hsymbol ▸ ht), ← hblocks]
    refine (expectWord_same .returnType hrest).bind fun first first' hfirst => ?_
    refine (declaration_same _ true hfirst.value hfirst.rest).bind
      fun declared declared' hdeclared => ?_
    refine (ih first declared hblocks hdeclared.rest).bind ?_
    rintro others _ rfl
    exact .ok (congrArg (· :: others) hdeclared.value)
  | case7 blocks t rest name ht ih =>
    cases h with | @cons _ t' _ rest' hsymbol hrest =>
    rw [items_identifier ht, items_identifier (hsymbol ▸ ht), ← hblocks]
    have hword : (Word.mk t.span name).name = (Word.mk t'.span name).name := rfl
    refine (declaration_same _ false hword hrest).bind fun declared declared' hdeclared => ?_
    refine (ih declared hblocks hdeclared.rest).bind ?_
    rintro others _ rfl
    exact .ok (congrArg (· :: others) hdeclared.value)
  | case8 blocks t rest hif hclose hthrows hname =>
    cases h with | @cons _ t' _ rest' hsymbol hrest =>
    rw [items_other hif hclose hthrows hname, items_other (hsymbol ▸ hif) (hsymbol ▸ hclose)
      (hsymbol ▸ hthrows) (hsymbol ▸ hname), ← hsymbol]
    exact .error (.unexpected ..)

end

/-! ### Lexemes and texts -/

/-- A lexeme is the same token or the same error, wherever it is. -/
theorem read_same {l l' : Lexeme} (h : l.text = l'.text) :
    SameOutcome (fun t t' => t.symbol = t'.symbol) l.read l'.read := by
  have hfirst : l.first.char = l'.first.char := (List.cons.inj h).1
  rw [Lexeme.read, Lexeme.read, ← h, ← hfirst]
  cases Lexeme.symbolOf? l.text with
  | none => exact .error (.unrecognized ..)
  | some symbol => exact .ok rfl

theorem mapM_read_same {ls ls' : List Lexeme} (h : ls.map Lexeme.text = ls'.map Lexeme.text) :
    SameOutcome SameSymbols (ls.mapM Lexeme.read) (ls'.mapM Lexeme.read) := by
  induction ls generalizing ls' with
  | nil =>
    cases List.map_eq_nil_iff.mp h.symm
    exact .ok .nil
  | cons l ls ih =>
    obtain ⟨l', ls', rfl, htext, hrest⟩ := List.map_eq_cons_iff.mp h.symm
    rw [List.mapM_cons, List.mapM_cons]
    refine (read_same htext.symm).bind fun t t' ht => ?_
    refine (ih hrest.symm).bind fun ts ts' hts => ?_
    exact .ok (.cons ht hts)

/-- Tables that consist of the same lexemes, with other gaps between them, declare the same or have
the same error, wherever it is. -/
theorem parse_same_of_spaced {a b : String} {others : List (List Char)}
    (ha : Spaced none others a.toList) (hb : Spaced none others b.toList) :
    SameOutcome Eq (parse a) (parse b) := by
  have htexts : texts a.toList = texts b.toList :=
    (spaced_iff.mp ha).trans (spaced_iff.mp hb).symm
  exact (mapM_read_same htexts).bind fun ts ts' hts => items_same rfl hts

/-- The second table has comments before its first and after its last lexeme, and a blank that is
no space. -/
theorem parse_same_with_comments :
    Spaced none [['i', 'n', 't'], ['f'], ['('], ['c', 'h', 'a', 'r'], [')'], [';']]
      "int f(char);".toList ∧
    Spaced none [['i', 'n', 't'], ['f'], ['('], ['c', 'h', 'a', 'r'], [')'], [';']]
      "# g\nint\u00a0f ( char#)\n);#".toList ∧
    SameOutcome Eq (parse "int f(char);") (parse "# g\nint\u00a0f ( char#)\n);#") := by
  have ha : Spaced none [['i', 'n', 't'], ['f'], ['('], ['c', 'h', 'a', 'r'], [')'], [';']]
      "int f(char);".toList := spaced_iff.mpr (by with_unfolding_all rfl)
  have hb : Spaced none [['i', 'n', 't'], ['f'], ['('], ['c', 'h', 'a', 'r'], [')'], [';']]
      "# g\nint\u00a0f ( char#)\n);#".toList := spaced_iff.mpr (by with_unfolding_all rfl)
  exact ⟨ha, hb, parse_same_of_spaced ha hb⟩

end CapFixture.Table
