import CapFixture.Proofs.Table.Blame

/-!
# Tables that end too early

A reader that reaches the end where more is wanted has read all tokens. If an `if` followed them,
which can stand in no declaration and in no start of a block, it would report that token instead.

## Main definitions

- `TableError.followedBy` — what becomes of an error if a token follows
- `IfFollows` — two readers of parts, of which one finds an `if` where the other finds the end
- `Persists` — two readers of tables, which are otherwise the same
-/

namespace CapFixture.Table

/-- What becomes of an error if the token follows where the table ended. -/
def TableError.followedBy (t : Token) : TableError → TableError
  | .unexpectedEnd _ wanted => .unexpected t.span wanted t.symbol
  | e => e

variable {α β : Type} {t : Token}

/-- Both readers give results, which are related, or the second one fails as the first does, but at
the token if that is where the first one ends. -/
inductive IfFollows (t : Token) (R : α → β → Prop) :
    Except TableError α → Except TableError β → Prop where
  | ok {a : α} {b : β} (related : R a b) : IfFollows t R (.ok a) (.ok b)
  | error (e : TableError) : IfFollows t R (.error e) (.error (e.followedBy t))

/-- The second reader fails as the first does, but at the token if that is where the first one ends.
It can read on where the first one has read everything, even if a block was still open. -/
inductive Persists (t : Token) : Except TableError α → Except TableError β → Prop where
  | ok (a : α) {y : Except TableError β} : Persists t (.ok a) y
  | unclosedBlock (span : Span) (define : String) {y : Except TableError β} :
      Persists t (.error (.unclosedBlock span define)) y
  | error (e : TableError) : Persists t (.error e) (.error (e.followedBy t))

section
variable {α' β' : Type} {R : α → β → Prop} {x : Except TableError α} {y : Except TableError β}
  {f : α → Except TableError α'} {g : β → Except TableError β'}

/-- Readers of parts that go on in the same way from related results. -/
theorem IfFollows.bind {S : α' → β' → Prop} (h : IfFollows t R x y)
    (hnext : ∀ a b, R a b → IfFollows t S (f a) (g b)) : IfFollows t S (x >>= f) (y >>= g) := by
  cases h with
  | ok related => exact hnext _ _ related
  | error e => exact .error e

/-- Readers of parts, and of tables behind them. -/
theorem IfFollows.bind_persists (h : IfFollows t R x y)
    (hnext : ∀ a b, R a b → Persists t (f a) (g b)) : Persists t (x >>= f) (y >>= g) := by
  cases h with
  | ok related => exact hnext _ _ related
  | error e => exact .error e

theorem Persists.bind_pure {f : α → α'} {g : β → β'} (h : Persists t x y) :
    Persists t (x >>= fun a => pure (f a)) (y >>= fun b => pure (g b)) := by
  cases h with
  | ok a => exact .ok (f a)
  | unclosedBlock span define => exact .unclosedBlock span define
  | error e => exact .error e

end

theorem Persists.of_unexpectedEnd {y : Except TableError β} {line : Nat} {wanted : Wanted}
    (h : Persists t (.error (.unexpectedEnd line wanted) : Except TableError α) y) :
    y = .error (.unexpected t.span wanted t.symbol) := by
  cases h
  rfl

/-- The same is read, and the token is still to come. -/
structure Parsed.Before (t : Token) (more : List Token) {ts ts' : List Token} (p : Parsed α ts)
    (p' : Parsed α ts') : Prop where
  value : p'.value = p.value
  rest : p'.rest = p.rest ++ t :: more

section
variable {endLine : Nat} {more ts ts' : List Token}

theorem expect_ifFollows (ht : t.symbol = .keywordIf) (wanted : Wanted)
    (h : ts' = ts ++ t :: more) :
    IfFollows t (Parsed.Before t more) (expect endLine wanted ts) (expect endLine wanted ts') := by
  subst h
  cases ts with
  | nil =>
    have hrefused : ¬ wanted.accepts t.symbol = true := by
      rw [ht]
      cases wanted <;> exact Bool.noConfusion
    rw [List.nil_append, expect, expect, if_neg hrefused]
    exact .error (.unexpectedEnd endLine wanted)
  | cons u rest =>
    rw [List.cons_append, expect, expect]
    by_cases ha : wanted.accepts u.symbol = true
    · rw [if_pos ha, if_pos ha]
      exact .ok ⟨rfl, rfl⟩
    · rw [if_neg ha, if_neg ha]
      exact .error (.unexpected ..)

theorem expectWord_ifFollows (ht : t.symbol = .keywordIf) (wanted : Wanted)
    (h : ts' = ts ++ t :: more) :
    IfFollows t (Parsed.Before t more) (expectWord endLine wanted ts)
      (expectWord endLine wanted ts') := by
  subst h
  cases ts with
  | nil =>
    obtain ⟨span, _⟩ := t
    cases ht
    exact .error (.unexpectedEnd endLine wanted)
  | cons u rest =>
    obtain ⟨span, symbol⟩ := u
    cases symbol with
    | identifier name => exact .ok ⟨rfl, rfl⟩
    | _ => exact .error (.unexpected ..)

theorem leadingWords_append (ht : t.symbol = .keywordIf) (ts more : List Token) :
    leadingWords (ts ++ t :: more) = ((leadingWords ts).1, (leadingWords ts).2 ++ t :: more) := by
  induction ts with
  | nil =>
    obtain ⟨span, _⟩ := t
    cases ht
    rfl
  | cons u rest ih =>
    obtain ⟨span, symbol⟩ := u
    cases symbol with
    | identifier name =>
      rw [List.cons_append, leadingWords, leadingWords]
      dsimp only
      rw [ih]
    | _ => rfl

theorem resolve_ifFollows (t : Token) {words words' : List Word} {span span' : Span}
    (hwords : words' = words) (hspan : span' = span) :
    IfFollows t Eq (resolve words span) (resolve words' span') := by
  subst hwords hspan
  unfold resolve
  cases ValueType.ofName? (joinWords words') with
  | none => exact .error (.unknownType ..)
  | some type => exact .ok rfl

theorem resolveResult_ifFollows (t : Token) {words words' : List Word} (span : Span)
    (hwords : words' = words) :
    IfFollows t Eq (resolveResult words span) (resolveResult words' span) := by
  subst hwords
  unfold resolveResult
  by_cases hv : joinWords words' = "void"
  · rw [if_pos hv]
    exact .ok rfl
  · rw [if_neg hv]
    refine (resolve_ifFollows t rfl rfl).bind ?_
    rintro type _ rfl
    exact .ok rfl

theorem argument_ifFollows (ht : t.symbol = .keywordIf) (h : ts' = ts ++ t :: more) :
    IfFollows t (Parsed.Before t more) (argument endLine ts) (argument endLine ts') := by
  subst h
  cases ts with
  | nil =>
    obtain ⟨span, _⟩ := t
    cases ht
    exact .error (.unexpectedEnd endLine .argumentType)
  | cons u rest =>
    obtain ⟨span, symbol⟩ := u
    cases symbol with
    | ellipsis => exact .ok ⟨rfl, rfl⟩
    | identifier name =>
      have hwords := leadingWords_append ht rest more
      have hfirst := congrArg Prod.fst hwords
      rw [List.cons_append]
      refine (resolve_ifFollows t (congrArg _ hfirst) ?_).bind ?_
      · rw [hfirst]
      · rintro type _ rfl
        exact .ok ⟨rfl, congrArg Prod.snd hwords⟩
    | _ => exact .error (.unexpected ..)

theorem argumentsFrom_ifFollows (ht : t.symbol = .keywordIf) (function : String)
    (afterVariadic : Bool) (h : ts' = ts ++ t :: more) :
    IfFollows t (Parsed.Before t more) (argumentsFrom endLine function afterVariadic ts)
      (argumentsFrom endLine function afterVariadic ts') := by
  induction afterVariadic, ts using argumentsFrom.induct generalizing ts' with
  | case1 afterVariadic ts ih =>
    rw [argumentsFrom, argumentsFrom]
    refine (argument_ifFollows ht h).bind fun arg arg' harg => ?_
    refine (expect_ifFollows ht .separator harg.rest).bind fun next next' hnext => ?_
    dsimp only
    rw [hnext.value, harg.value]
    by_cases hv : afterVariadic = true
    · rw [if_pos hv, if_pos hv]
      exact .error (.misplacedVariadic ..)
    · rw [if_neg hv, if_neg hv]
      by_cases hclose : next.value = .parenClose
      · rw [if_pos hclose, if_pos hclose]
        exact .ok ⟨rfl, hnext.rest⟩
      · rw [if_neg hclose, if_neg hclose]
        refine (ih arg next hnext.rest).bind fun others others' hothers => ?_
        exact .ok ⟨congrArg (arg.value.2 :: ·) hothers.value, hothers.rest⟩

theorem arguments_ifFollows (ht : t.symbol = .keywordIf) (function : String)
    (h : ts' = ts ++ t :: more) :
    IfFollows t (Parsed.Before t more) (arguments endLine function ts)
      (arguments endLine function ts') := by
  have hfrom : IfFollows t (Parsed.Before t more) (argumentsFrom endLine function false ts)
      (argumentsFrom endLine function false ts') := argumentsFrom_ifFollows ht function false h
  subst h
  cases ts with
  | nil =>
    obtain ⟨span, _⟩ := t
    cases ht
    exact hfrom
  | cons u rest =>
    obtain ⟨span, symbol⟩ := u
    cases symbol with
    | parenClose => exact .ok ⟨rfl, rfl⟩
    | _ => exact hfrom

theorem declaration_ifFollows (ht : t.symbol = .keywordIf) (defines : List String) (throws : Bool)
    (first : Word) (h : ts' = ts ++ t :: more) :
    IfFollows t (Parsed.Before t more) (declaration endLine defines throws first ts)
      (declaration endLine defines throws first ts') := by
  subst h
  have hwords := leadingWords_append ht ts more
  have hfirst := congrArg Prod.fst hwords
  have hrest := congrArg Prod.snd hwords
  unfold declaration
  dsimp only
  cases hname : (leadingWords ts).1.getLast? with
  | none =>
    have hname' : (leadingWords (ts ++ t :: more)).1.getLast? = none := by rw [hfirst, hname]
    rw [hname']
    exact .error (.unexpected ..)
  | some name =>
    have hname' : (leadingWords (ts ++ t :: more)).1.getLast? = some name := by rw [hfirst, hname]
    rw [hname']
    dsimp only
    refine (resolveResult_ifFollows t _ (by rw [hfirst])).bind ?_
    rintro result _ rfl
    refine (expect_ifFollows ht .openParen hrest).bind fun paren paren' hparen => ?_
    refine (arguments_ifFollows ht name.name hparen.rest).bind fun args args' hargs => ?_
    refine (expect_ifFollows ht .semicolon hargs.rest).bind fun stop stop' hstop => ?_
    refine .ok ⟨?_, hstop.rest⟩
    dsimp only
    rw [hargs.value]

/-- With an `if` behind a table that ends too early, that token is not expected. -/
theorem items_ifFollows (ht : t.symbol = .keywordIf) (blocks : List Block)
    (h : ts' = ts ++ t :: more) :
    Persists t (items endLine blocks ts) (items endLine blocks ts') := by
  induction blocks, ts using items.induct generalizing ts' with
  | case1 =>
    rw [items]
    exact .ok []
  | case2 block tail =>
    rw [items]
    exact .unclosedBlock ..
  | case3 blocks u rest hu ih =>
    rw [h, List.cons_append, items_keywordIf hu, items_keywordIf hu]
    refine (expectWord_ifFollows ht .defineName rfl).bind_persists fun define define' hdefine => ?_
    refine (expect_ifFollows ht .openBrace hdefine.rest).bind_persists fun brace brace' hbrace => ?_
    rw [hdefine.value]
    exact ih define brace hbrace.rest
  | case4 u rest hu =>
    rw [h, List.cons_append, items_braceClose_outside hu, items_braceClose_outside hu]
    exact .error (.unexpected ..)
  | case5 u rest hu block tail ih =>
    rw [h, List.cons_append, items_braceClose hu, items_braceClose hu]
    exact ih rfl
  | case6 blocks u rest hu ih =>
    rw [h, List.cons_append, items_keywordThrows hu, items_keywordThrows hu]
    refine (expectWord_ifFollows ht .returnType rfl).bind_persists fun first first' hfirst => ?_
    rw [hfirst.value]
    refine (declaration_ifFollows ht _ true first.value hfirst.rest).bind_persists
      fun declared declared' hdeclared => ?_
    exact (ih first declared hdeclared.rest).bind_pure
  | case7 blocks u rest name hu ih =>
    rw [h, List.cons_append, items_identifier hu, items_identifier hu]
    refine (declaration_ifFollows ht _ false ⟨u.span, name⟩ rfl).bind_persists
      fun declared declared' hdeclared => ?_
    exact (ih declared hdeclared.rest).bind_pure
  | case8 blocks u rest hif hclose hthrows hname =>
    rw [h, List.cons_append, items_other hif hclose hthrows hname,
      items_other hif hclose hthrows hname]
    exact .error (.unexpected ..)

end

end CapFixture.Table
