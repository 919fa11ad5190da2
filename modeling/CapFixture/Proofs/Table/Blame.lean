import CapFixture.Proofs.Table.Parsing

/-!
# What errors point at

An error is reported when more of the tokens has been read than it is about. What it says is still
true of them: its span covers what it names, and stands where that can go wrong.

## Main definitions

- `Blames` — what an error says of the tokens
- `Entered`, `AtItem` — what has been read in front of an argument and in front of an item
-/

namespace CapFixture.Table

/-- The token of an identifier. -/
def Word.token (w : Word) : Token := ⟨w.span, .identifier w.name⟩

/-- Tokens in which every brace has its partner. -/
inductive Balanced : List Token → Prop where
  | nil : Balanced []
  | other {t : Token} {rest : List Token} (no_open : t.symbol ≠ .braceOpen)
      (no_close : t.symbol ≠ .braceClose) (balanced : Balanced rest) : Balanced (t :: rest)
  | braces {t u : Token} {inside rest : List Token} (opens : t.symbol = .braceOpen)
      (inner : Balanced inside) (closes : u.symbol = .braceClose) (outer : Balanced rest) :
      Balanced (t :: (inside ++ u :: rest))

/-- Behind these tokens a declaration can begin. -/
def Begins (front : List Token) : Prop :=
  ∀ t ∈ front.getLast?, t.symbol ∈ [.keywordThrows, .braceOpen, .braceClose, .semicolon]

/-- What an error says of the tokens, which end on the given line. -/
inductive Blames (endLine : Nat) (ts : List Token) : TableError → Prop where
  | unexpected {front back : List Token} {t : Token} (wanted : Wanted)
      (tokens : ts = front ++ t :: back) : Blames endLine ts (.unexpected t.span wanted t.symbol)
  | unexpectedEnd (wanted : Wanted) : Blames endLine ts (.unexpectedEnd endLine wanted)
  /-- All words up to the next token are the type of an argument. -/
  | argumentType {front back : List Token} {before : Token} {words : List Word} {first last : Word}
      (tokens : ts = front ++ before :: (words.map Word.token ++ back))
      (separates : before.symbol = .parenOpen ∨ before.symbol = .comma)
      (ends : ¬ StartsWord (back.map Token.symbol))
      (starts_with : words.head? = some first) (ends_with : words.getLast? = some last)
      (unknown : ValueType.ofName? (" ".intercalate (words.map Word.name)) = none) :
      Blames endLine ts
        (.unknownType (first.span.extend last.span) (" ".intercalate (words.map Word.name)))
  /-- All words of a declaration but the last one, which is its name, are what it returns. -/
  | resultType {front back : List Token} {words : List Word} {first name : Word}
      (tokens : ts = front ++ (words.map Word.token ++ name.token :: back))
      (begins : Begins front) (ends : ¬ StartsWord (back.map Token.symbol))
      (starts_with : words.head? = some first)
      (unknown : ValueType.ofName? (" ".intercalate (words.map Word.name)) = none) :
      Blames endLine ts
        (.unknownType (first.span.extend name.span) (" ".intercalate (words.map Word.name)))
  /-- The first token of an argument, behind the first `...` of the function. -/
  | misplacedVariadic {front inside back : List Token} {name : Word} {paren dots comma t : Token}
      (tokens : ts = front ++ name.token :: paren :: (inside ++ dots :: comma :: t :: back))
      (opens : paren.symbol = .parenOpen)
      (arguments : ∀ u ∈ inside, u.symbol = .comma ∨ ∃ word, u.symbol = .identifier word)
      (variadic : dots.symbol = .ellipsis) (separates : comma.symbol = .comma)
      (argument : t.symbol = .ellipsis ∨ ∃ word, t.symbol = .identifier word) :
      Blames endLine ts (.misplacedVariadic t.span name.name)
  /-- The innermost block that is open at the end. -/
  | unclosedBlock {front inside : List Token} {keyword brace : Token} {define : Word}
      (tokens : ts = front ++ keyword :: define.token :: brace :: inside)
      (starts : keyword.symbol = .keywordIf) (opens : brace.symbol = .braceOpen)
      (closed : Balanced inside) :
      Blames endLine ts (.unclosedBlock (keyword.span.extend define.span) define.name)

variable {endLine : Nat} {ts front : List Token} {e : TableError} {function : String}
  {afterVariadic : Bool} {blocks : List Block}

/-! ### Braces -/

theorem Balanced.append {us : List Token} (h : Balanced ts) (hus : Balanced us) :
    Balanced (ts ++ us) := by
  induction h with
  | nil => exact hus
  | other no_open no_close _ ih => exact .other no_open no_close ih
  | braces opens inner closes _ _ ih =>
    rw [List.cons_append, List.append_assoc]
    exact .braces opens inner closes ih

theorem balanced_of_forall
    (h : ∀ t ∈ ts, t.symbol ≠ .braceOpen ∧ t.symbol ≠ .braceClose) : Balanced ts := by
  induction ts with
  | nil => exact .nil
  | cons t ts ih =>
    rw [List.forall_mem_cons] at h
    exact .other h.1.1 h.1.2 (ih h.2)

theorem balanced_words (words : List Word) : Balanced (words.map Word.token) := by
  refine balanced_of_forall fun t ht => ?_
  obtain ⟨w, _, rfl⟩ := List.mem_map.mp ht
  exact ⟨Symbol.noConfusion, Symbol.noConfusion⟩

/-! ### Single tokens and runs of words -/

theorem exists_token_of_expect {wanted : Wanted} {p : Parsed Symbol ts}
    (h : expect endLine wanted ts = .ok p) :
    ∃ t, ts = t :: p.rest ∧ t.symbol = p.value ∧ wanted.accepts t.symbol = true := by
  cases ts with
  | nil => cases h
  | cons t rest =>
    rw [expect] at h
    split at h
    · next ha =>
      cases h
      exact ⟨t, rfl, rfl, ha⟩
    · cases h

theorem blames_expect {wanted : Wanted} (front : List Token)
    (h : expect endLine wanted ts = .error e) : Blames endLine (front ++ ts) e := by
  cases ts with
  | nil =>
    cases h
    exact .unexpectedEnd ..
  | cons t rest =>
    rw [expect] at h
    split at h
    · cases h
    · cases h
      exact .unexpected wanted rfl

theorem tokens_of_expectWord {wanted : Wanted} {p : Parsed Word ts}
    (h : expectWord endLine wanted ts = .ok p) : ts = p.value.token :: p.rest := by
  cases ts with
  | nil => cases h
  | cons t rest =>
    obtain ⟨span, symbol⟩ := t
    cases symbol with
    | identifier name =>
      cases h
      rfl
    | _ => cases h

theorem blames_expectWord {wanted : Wanted} (front : List Token)
    (h : expectWord endLine wanted ts = .error e) : Blames endLine (front ++ ts) e := by
  cases ts with
  | nil =>
    cases h
    exact .unexpectedEnd ..
  | cons t rest =>
    obtain ⟨span, symbol⟩ := t
    cases symbol with
    | identifier name => cases h
    | _ =>
      cases h
      exact .unexpected wanted rfl

theorem tokens_leadingWords (ts : List Token) :
    (leadingWords ts).1.map Word.token ++ (leadingWords ts).2 = ts := by
  induction ts with
  | nil => rfl
  | cons t rest ih =>
    obtain ⟨span, symbol⟩ := t
    cases symbol with
    | identifier name => exact congrArg (_ :: ·) ih
    | _ => rfl

theorem not_startsWord_leadingWords (ts : List Token) :
    ¬ StartsWord ((leadingWords ts).2.map Token.symbol) := by
  rintro ⟨name, hname⟩
  induction ts with
  | nil => cases hname
  | cons t rest ih =>
    obtain ⟨span, symbol⟩ := t
    cases symbol with
    | identifier name => exact ih hname
    | _ => cases hname

theorem resolve_eq_error_iff {words : List Word} {span : Span} :
    resolve words span = .error e ↔
      ValueType.ofName? (" ".intercalate (words.map Word.name)) = none ∧
        e = .unknownType span (" ".intercalate (words.map Word.name)) := by
  unfold resolve joinWords
  cases ValueType.ofName? (" ".intercalate (words.map Word.name)) with
  | none => simp [eq_comm]
  | some type => simp

theorem resolveResult_eq_error_iff {words : List Word} {span : Span} :
    resolveResult words span = .error e ↔ joinWords words ≠ "void" ∧
      resolve words span = .error e := by
  unfold resolveResult
  by_cases hv : joinWords words = "void"
  · rw [if_pos hv]
    simp [hv]
  · rw [if_neg hv, bind_eq_error_iff]
    simp [hv, pure, Except.pure]

/-! ### Arguments -/

/-- What is read as an argument, with where its first token stands. -/
inductive ReadsArgument : List Token → Span × Argument → Prop where
  | variadic (span : Span) : ReadsArgument [⟨span, .ellipsis⟩] (span, .variadic)
  | value (first : Word) (others : List Word) (type : ValueType) :
      ReadsArgument ((first :: others).map Word.token) (first.span, .value type)

/-- The tokens up to an argument of the function, which may follow a variadic one. -/
inductive Entered (function : String) : Bool → List Token → Prop where
  | opened {front : List Token} {name : Word} {paren : Token} (named : name.name = function)
      (opens : paren.symbol = .parenOpen) : Entered function false (front ++ [name.token, paren])
  | value {front : List Token} {words : List Word} {comma : Token}
      (entered : Entered function false front) (separates : comma.symbol = .comma) :
      Entered function false (front ++ (words.map Word.token ++ [comma]))
  | variadic {front : List Token} {dots comma : Token} (entered : Entered function false front)
      (dots_is : dots.symbol = .ellipsis) (separates : comma.symbol = .comma) :
      Entered function true (front ++ [dots, comma])

theorem Entered.exists_last (h : Entered function afterVariadic front) :
    ∃ outer t, front = outer ++ [t] ∧ (t.symbol = .parenOpen ∨ t.symbol = .comma) := by
  cases h with
  | @opened front name paren _ opens =>
    exact ⟨front ++ [name.token], paren, by simp, .inl opens⟩
  | @value front words comma _ separates =>
    exact ⟨front ++ words.map Word.token, comma, by simp, .inr separates⟩
  | @variadic front dots comma _ _ separates =>
    exact ⟨front ++ [dots], comma, by simp, .inr separates⟩

/-- The function is named in front of its arguments. -/
theorem Entered.exists_inside (h : Entered function false front) :
    ∃ (outer : List Token) (name : Word) (paren : Token) (inside : List Token),
      front = outer ++ name.token :: paren :: inside ∧ name.name = function ∧
      paren.symbol = .parenOpen ∧
      ∀ u ∈ inside, u.symbol = .comma ∨ ∃ word, u.symbol = .identifier word := by
  generalize hv : false = after at h
  induction h with
  | @opened front name paren named opens =>
    exact ⟨front, name, paren, [], rfl, named, opens, by simp⟩
  | @value front words comma _ separates ih =>
    obtain ⟨outer, name, paren, inside, rfl, named, opens, hinside⟩ := ih rfl
    refine ⟨outer, name, paren, inside ++ (words.map Word.token ++ [comma]), by simp, named, opens,
      ?_⟩
    refine List.forall_mem_append.mpr ⟨hinside, List.forall_mem_append.mpr ⟨fun u hu => ?_, ?_⟩⟩
    · obtain ⟨w, _, rfl⟩ := List.mem_map.mp hu
      exact .inr ⟨w.name, rfl⟩
    · exact List.forall_mem_singleton.mpr (.inl separates)
  | variadic => cases hv

theorem exists_argument {p : Parsed (Span × Argument) ts} (h : argument endLine ts = .ok p) :
    ∃ front, ts = front ++ p.rest ∧ ReadsArgument front p.value := by
  cases ts with
  | nil => cases h
  | cons t rest =>
    obtain ⟨span, symbol⟩ := t
    cases symbol with
    | ellipsis =>
      cases h
      exact ⟨[_], rfl, .variadic span⟩
    | identifier name =>
      obtain ⟨type, _, h⟩ := bind_eq_ok_iff.mp h
      cases h
      refine ⟨_, ?_, .value ⟨span, name⟩ (leadingWords rest).1 type⟩
      exact congrArg (_ :: ·) (tokens_leadingWords rest).symm
    | _ => cases h

theorem ReadsArgument.balanced {span : Span} {arg : Argument} (h : ReadsArgument ts (span, arg)) :
    Balanced ts := by
  cases h with
  | variadic => exact .other Symbol.noConfusion Symbol.noConfusion .nil
  | value first others => exact balanced_words (first :: others)

theorem blames_argument (hfront : Entered function afterVariadic front)
    (h : argument endLine ts = .error e) : Blames endLine (front ++ ts) e := by
  obtain ⟨outer, before, rfl, hbefore⟩ := hfront.exists_last
  cases ts with
  | nil =>
    cases h
    exact .unexpectedEnd ..
  | cons t rest =>
    obtain ⟨span, symbol⟩ := t
    cases symbol with
    | ellipsis => cases h
    | identifier name =>
      rcases bind_eq_error_iff.mp h with h | ⟨type, _, h⟩
      · obtain ⟨hunknown, rfl⟩ := resolve_eq_error_iff.mp h
        have hlast : (Word.mk span name :: (leadingWords rest).1).getLast? =
            some ((leadingWords rest).1.getLast?.getD ⟨span, name⟩) := List.getLast?_cons
        have htokens : outer ++ [before] ++ ⟨span, .identifier name⟩ :: rest =
            outer ++ before :: ((⟨span, name⟩ :: (leadingWords rest).1).map Word.token ++
              (leadingWords rest).2) := by
          conv_lhs => rw [← tokens_leadingWords rest, List.append_assoc]
          rfl
        exact .argumentType htokens hbefore (not_startsWord_leadingWords rest) rfl hlast hunknown
      · cases h
    | _ =>
      cases h
      exact .unexpected _ rfl

/-- What follows an argument and its separator is entered as the next argument. -/
theorem Entered.next {arg : Span × Argument} {run : List Token} {comma : Token}
    (h : Entered function false front) (hrun : ReadsArgument run arg)
    (hcomma : comma.symbol = .comma) :
    Entered function (arg.2 = .variadic) (front ++ (run ++ [comma])) := by
  cases hrun with
  | variadic span => exact .variadic h rfl hcomma
  | value first others type => exact .value h hcomma

theorem blames_misplacedVariadic {arg : Span × Argument} {run rest : List Token}
    (hfront : Entered function true front) (hrun : ReadsArgument run arg)
    (hts : ts = run ++ rest) :
    Blames endLine (front ++ ts) (.misplacedVariadic arg.1 function) := by
  subst hts
  cases hfront with
  | @variadic before dots comma entered dots_is separates =>
    obtain ⟨outer, name, paren, inside, rfl, rfl, opens, hinside⟩ := entered.exists_inside
    obtain ⟨t, others, rfl, ht, hspan⟩ : ∃ (t : Token) (others : List Token), run = t :: others ∧
        (t.symbol = .ellipsis ∨ ∃ word, t.symbol = .identifier word) ∧ t.span = arg.1 := by
      cases hrun with
      | variadic span => exact ⟨_, _, rfl, .inl rfl, rfl⟩
      | value first others => exact ⟨_, _, rfl, .inr ⟨_, rfl⟩, rfl⟩
    have htokens : (outer ++ name.token :: paren :: inside) ++ [dots, comma] ++
        (t :: others ++ rest) = outer ++ name.token :: paren ::
          (inside ++ dots :: comma :: t :: (others ++ rest)) := by simp
    rw [← hspan]
    exact .misplacedVariadic htokens opens hinside dots_is separates ht

theorem blames_argumentsFrom (hfront : Entered function afterVariadic front)
    (h : argumentsFrom endLine function afterVariadic ts = .error e) :
    Blames endLine (front ++ ts) e := by
  -- along the reader, with all that it has read, as it sees a misplaced argument only afterwards
  induction afterVariadic, ts using argumentsFrom.induct generalizing front with
  | case1 afterVariadic ts ih =>
    rw [argumentsFrom] at h
    rcases bind_eq_error_iff.mp h with h | ⟨arg, harg, h⟩
    · exact blames_argument hfront h
    · obtain ⟨run, hts, hrun⟩ := exists_argument harg
      rcases bind_eq_error_iff.mp h with h | ⟨next, hnext, h⟩
      · rw [hts, ← List.append_assoc]
        exact blames_expect _ h
      · obtain ⟨separator, hrest, hvalue, ha⟩ := exists_token_of_expect hnext
        dsimp only at h
        split at h
        · next hafter =>
          cases h
          rw [hafter] at hfront
          exact blames_misplacedVariadic hfront hrun hts
        · next hfirst =>
          rw [(by simpa using hfirst : afterVariadic = false)] at hfront
          split at h
          · cases h
          · next hopen =>
            have hcomma : separator.symbol = .comma := by
              simpa [hvalue, hopen] using Wanted.accepts_iff.mp ha
            rcases bind_eq_error_iff.mp h with h | ⟨others, _, h⟩
            · have hothers := ih arg next (hfront.next hrun hcomma) h
              rw [hts, hrest]
              simpa using hothers
            · cases h

theorem blames_arguments (hfront : Entered function false front)
    (h : arguments endLine function ts = .error e) : Blames endLine (front ++ ts) e := by
  unfold arguments at h
  split at h
  · cases h
  · exact blames_argumentsFrom hfront h

/-- What is read as arguments has no braces. -/
theorem exists_argumentsFrom {p : Parsed (List Argument) ts}
    (h : argumentsFrom endLine function afterVariadic ts = .ok p) :
    ∃ front, ts = front ++ p.rest ∧ Balanced front := by
  induction afterVariadic, ts using argumentsFrom.induct with
  | case1 afterVariadic ts ih =>
    rw [argumentsFrom] at h
    obtain ⟨arg, harg, h⟩ := bind_eq_ok_iff.mp h
    obtain ⟨next, hnext, h⟩ := bind_eq_ok_iff.mp h
    obtain ⟨run, hts, hrun⟩ := exists_argument harg
    obtain ⟨separator, hrest, _, ha⟩ := exists_token_of_expect hnext
    have hseparator : separator.symbol ≠ .braceOpen ∧ separator.symbol ≠ .braceClose := by
      rcases (by simpa using Wanted.accepts_iff.mp ha :
        separator.symbol = .comma ∨ separator.symbol = .parenClose) with hs | hs <;> simp [hs]
    have hrun : Balanced (run ++ [separator]) :=
      hrun.balanced.append (.other hseparator.1 hseparator.2 .nil)
    have hsplit : ts = (run ++ [separator]) ++ next.rest :=
      hts.trans ((congrArg (run ++ ·) hrest).trans (List.append_cons ..))
    dsimp only at h
    split at h
    · cases h
    · split at h
      · cases h
        exact ⟨_, hsplit, hrun⟩
      · obtain ⟨others, hothers, h⟩ := bind_eq_ok_iff.mp h
        cases h
        obtain ⟨inside, hinside, hbalanced⟩ := ih arg next hothers
        refine ⟨(run ++ [separator]) ++ inside, hsplit.trans ?_, hrun.append hbalanced⟩
        exact (congrArg ((run ++ [separator]) ++ ·) hinside).trans (List.append_assoc ..).symm

theorem exists_arguments {p : Parsed (List Argument) ts}
    (h : arguments endLine function ts = .ok p) :
    ∃ front, ts = front ++ p.rest ∧ Balanced front := by
  unfold arguments at h
  split at h
  · cases h
    exact ⟨[_], rfl, .other Symbol.noConfusion Symbol.noConfusion .nil⟩
  · exact exists_argumentsFrom h

/-! ### Declarations -/

section
variable {defines : List String} {throws : Bool} {first : Word}

/-- The last word in front of the parenthesis is the name. -/
theorem tokens_declared (first : Word) {name : Word}
    (hname : (leadingWords ts).1.getLast? = some name) :
    first.token :: ts = (first :: (leadingWords ts).1.dropLast).map Word.token ++
      name.token :: (leadingWords ts).2 := by
  have hwords := List.dropLast_append_getLast? name hname
  conv_lhs => rw [← tokens_leadingWords ts, ← hwords]
  simp

theorem blames_declaration (hfront : Begins front)
    (h : declaration endLine defines throws first ts = .error e) :
    Blames endLine (front ++ first.token :: ts) e := by
  unfold declaration at h
  dsimp only at h
  split at h
  · cases h
    exact .unexpected .returnTypeAndName rfl
  · next name hname =>
    have hsplit := congrArg (front ++ ·) (tokens_declared first hname)
    rcases bind_eq_error_iff.mp h with h | ⟨result, _, h⟩
    · obtain ⟨hunknown, rfl⟩ := resolve_eq_error_iff.mp (resolveResult_eq_error_iff.mp h).2
      exact .resultType hsplit hfront (not_startsWord_leadingWords ts) rfl hunknown
    · rcases bind_eq_error_iff.mp h with h | ⟨paren, hparen, h⟩
      · rw [hsplit, ← List.append_assoc, List.append_cons]
        exact blames_expect _ h
      · obtain ⟨opening, hopening, _, ha⟩ := exists_token_of_expect hparen
        have hopen : opening.symbol = .parenOpen := by simpa using Wanted.accepts_iff.mp ha
        rw [hopening] at hsplit
        rcases bind_eq_error_iff.mp h with h | ⟨args, hargs, h⟩
        · have hentered : Entered name.name false ((front ++
              (first :: (leadingWords ts).1.dropLast).map Word.token) ++ [name.token, opening]) :=
            .opened rfl hopen
          rw [hsplit]
          simpa using blames_arguments hentered h
        · obtain ⟨inside, hinside, _⟩ := exists_arguments hargs
          rcases bind_eq_error_iff.mp h with h | ⟨stop, _, h⟩
          · have hblames := blames_expect (front ++
              (first :: (leadingWords ts).1.dropLast).map Word.token ++
                name.token :: opening :: inside) h
            rw [hsplit, hinside]
            simpa using hblames
          · cases h

/-- A declaration has no braces and ends with its semicolon. -/
theorem exists_declaration {p : Parsed Signature ts}
    (h : declaration endLine defines throws first ts = .ok p) :
    ∃ front stop, ts = front ++ stop :: p.rest ∧ Balanced front ∧ stop.symbol = .semicolon := by
  have hts := tokens_leadingWords ts
  unfold declaration at h
  dsimp only at h
  split at h
  · cases h
  · obtain ⟨result, _, h⟩ := bind_eq_ok_iff.mp h
    obtain ⟨paren, hparen, h⟩ := bind_eq_ok_iff.mp h
    obtain ⟨args, hargs, h⟩ := bind_eq_ok_iff.mp h
    obtain ⟨stop, hstop, h⟩ := bind_eq_ok_iff.mp h
    cases h
    obtain ⟨opening, hopening, _, ha⟩ := exists_token_of_expect hparen
    obtain ⟨inside, hinside, hbalanced⟩ := exists_arguments hargs
    obtain ⟨closing, hclosing, _, hc⟩ := exists_token_of_expect hstop
    have hopen : opening.symbol = .parenOpen := by simpa using Wanted.accepts_iff.mp ha
    have hclose : closing.symbol = .semicolon := by simpa using Wanted.accepts_iff.mp hc
    refine ⟨(leadingWords ts).1.map Word.token ++ opening :: inside, closing, ?_,
      (balanced_words _).append (.other (by simp [hopen]) (by simp [hopen]) hbalanced), hclose⟩
    conv_lhs => rw [← hts, hopening, hinside, hclosing]
    simp

end

/-! ### Blocks -/

/-- What has been read when the given blocks are open, innermost first. -/
inductive Opened : List Block → List Token → Prop where
  | outside {front : List Token} (closed : Balanced front) : Opened [] front
  | inside {blocks : List Block} {front body : List Token} {keyword brace : Token} {define : Word}
      (outer : Opened blocks front) (starts : keyword.symbol = .keywordIf)
      (opens : brace.symbol = .braceOpen) (closed : Balanced body) :
      Opened (⟨keyword.span.extend define.span, define.name⟩ :: blocks)
        (front ++ keyword :: define.token :: brace :: body)

theorem Opened.append {us : List Token} (h : Opened blocks front) (hus : Balanced us) :
    Opened blocks (front ++ us) := by
  cases h with
  | outside closed => exact .outside (closed.append hus)
  | inside outer starts opens closed =>
    rw [List.append_assoc]
    exact .inside outer starts opens (closed.append hus)

/-- Behind a brace that closes it, a block is no longer open. -/
theorem Opened.close {block : Block} {brace : Token} (h : Opened (block :: blocks) front)
    (hclose : brace.symbol = .braceClose) : Opened blocks (front ++ [brace]) := by
  cases h with
  | @inside _ front body keyword opening define outer starts opens closed =>
    have hblock : Balanced (keyword :: define.token :: opening :: (body ++ brace :: [])) :=
      .other (by simp [starts]) (by simp [starts]) (.other Symbol.noConfusion Symbol.noConfusion
        (.braces opens closed hclose .nil))
    rw [List.append_assoc]
    exact outer.append hblock

/-- What has been read in front of an item. -/
structure AtItem (blocks : List Block) (front : List Token) : Prop where
  opened : Opened blocks front
  begins : Begins front

theorem begins_concat {t : Token}
    (h : t.symbol ∈ [.keywordThrows, .braceOpen, .braceClose, .semicolon]) (front : List Token) :
    Begins (front ++ [t]) := by
  intro u hu
  rw [List.getLast?_concat] at hu
  exact Option.some.inj hu ▸ h

theorem atItem_nil : AtItem [] [] := ⟨.outside .nil, fun _ h => nomatch h⟩

theorem AtItem.keywordThrows {keyword : Token} (h : AtItem blocks front)
    (hthrows : keyword.symbol = .keywordThrows) : AtItem blocks (front ++ [keyword]) :=
  ⟨h.opened.append (.other (by simp [hthrows]) (by simp [hthrows]) .nil),
    begins_concat (by simp [hthrows]) front⟩

theorem AtItem.block {keyword brace : Token} {define : Word} (h : AtItem blocks front)
    (hif : keyword.symbol = .keywordIf) (hopen : brace.symbol = .braceOpen) :
    AtItem (⟨keyword.span.extend define.span, define.name⟩ :: blocks)
      (front ++ [keyword, define.token, brace]) := by
  refine ⟨.inside h.opened hif hopen .nil, ?_⟩
  have hconcat : front ++ [keyword, define.token, brace] =
      (front ++ [keyword, define.token]) ++ [brace] := by simp
  rw [hconcat]
  exact begins_concat (by simp [hopen]) _

theorem AtItem.close {block : Block} {brace : Token} (h : AtItem (block :: blocks) front)
    (hclose : brace.symbol = .braceClose) : AtItem blocks (front ++ [brace]) :=
  ⟨h.opened.close hclose, begins_concat (by simp [hclose]) front⟩

theorem AtItem.declaration {run : List Token} {stop : Token} (h : AtItem blocks front)
    (hrun : Balanced run) (hstop : stop.symbol = .semicolon) :
    AtItem blocks ((front ++ run) ++ [stop]) :=
  ⟨(h.opened.append hrun).append (.other (by simp [hstop]) (by simp [hstop]) .nil),
    begins_concat (by simp [hstop]) _⟩

/-- A declaration is to blame, or what is read after it. -/
theorem blames_declared {first : Word} {defines : List String} {throws : Bool}
    (hfront : AtItem blocks front)
    (h : (do
      let declared ← declaration endLine defines throws first ts
      return declared.value :: (← items endLine blocks declared.rest)) = .error e)
    (hrest : ∀ (declared : Parsed Signature ts) {front : List Token}, AtItem blocks front →
      items endLine blocks declared.rest = .error e → Blames endLine (front ++ declared.rest) e) :
    Blames endLine (front ++ first.token :: ts) e := by
  rcases bind_eq_error_iff.mp h with h | ⟨declared, hdeclared, h⟩
  · exact blames_declaration hfront.begins h
  · obtain ⟨run, stop, hrun, hbalanced, hstop⟩ := exists_declaration hdeclared
    have hread : Balanced (first.token :: run) :=
      .other Symbol.noConfusion Symbol.noConfusion hbalanced
    rcases bind_eq_error_iff.mp h with h | ⟨others, _, h⟩
    · have hblames := hrest declared (hfront.declaration hread hstop) h
      rw [hrun]
      simpa using hblames
    · cases h

/-- What an error says of the tokens is true, wherever the reader is when it sees it. -/
theorem blames_items (hfront : AtItem blocks front) (h : items endLine blocks ts = .error e) :
    Blames endLine (front ++ ts) e := by
  -- each item leaves the reader in front of another one, where the open blocks are those it knows
  induction blocks, ts using items.induct generalizing front with
  | case1 =>
    rw [items] at h
    cases h
  | case2 block tail =>
    rw [items] at h
    cases h
    rw [List.append_nil]
    cases hfront.opened with
    | inside outer starts opens closed => exact .unclosedBlock rfl starts opens closed
  | case3 blocks t rest ht ih =>
    rw [items_keywordIf ht] at h
    rcases bind_eq_error_iff.mp h with h | ⟨define, hdefine, h⟩
    · rw [List.append_cons]
      exact blames_expectWord _ h
    · have hname := tokens_of_expectWord hdefine
      rcases bind_eq_error_iff.mp h with h | ⟨brace, hbrace, h⟩
      · have hblames := blames_expect (front ++ [t, define.value.token]) h
        rw [hname]
        simpa using hblames
      · obtain ⟨opening, hopening, _, ha⟩ := exists_token_of_expect hbrace
        have hopen : opening.symbol = .braceOpen := by simpa using Wanted.accepts_iff.mp ha
        have hblames := ih define brace (hfront.block ht hopen) h
        rw [hname, hopening]
        simpa using hblames
  | case4 t rest ht =>
    rw [items_braceClose_outside ht] at h
    cases h
    rw [← ht]
    exact .unexpected .declaration rfl
  | case5 t rest ht block tail ih =>
    rw [items_braceClose ht] at h
    rw [List.append_cons]
    exact ih (hfront.close ht) h
  | case6 blocks t rest ht ih =>
    rw [items_keywordThrows ht] at h
    rcases bind_eq_error_iff.mp h with h | ⟨first, hfirst, h⟩
    · rw [List.append_cons]
      exact blames_expectWord _ h
    · rw [tokens_of_expectWord hfirst, List.append_cons]
      exact blames_declared (hfront.keywordThrows ht) h fun declared => ih first declared
  | case7 blocks t rest name ht ih =>
    have hword : t = Word.token ⟨t.span, name⟩ := by rw [Word.token, ← ht]
    rw [items_identifier ht] at h
    rw [hword]
    exact blames_declared hfront h fun declared => ih declared
  | case8 blocks t rest hif hclose hthrows hname =>
    rw [items_other hif hclose hthrows hname] at h
    cases h
    exact .unexpected .declaration rfl

end CapFixture.Table
