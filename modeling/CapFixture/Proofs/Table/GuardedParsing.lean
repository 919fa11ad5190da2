import CapFixture.Proofs.Table.Blame
import CapFixture.Proofs.Table.GuardedTokens

/-!
# Tables read on guard

Of the tokens of a text none starts or stops behind a later one, and this also holds of what is left
of them while a table is read. So the reader on guard has no lapse, and it reads what the other
reader reads.
-/

namespace CapFixture.Table.Guarded

variable {endLine : Nat} {ts rest : List Token}

theorem extend_eq {s t : Span} (h : s.UpTo t) : extend s t = .ok (s.extend t) :=
  if_pos h

theorem lift_mirrors {α : Type} (x : Except TableError α) :
    Mirrors (fun a b => b = a) x (lift x) := by
  cases x with
  | error e => exact .rejected e
  | ok a => exact .ok rfl

/-! ### Single tokens and runs of words -/

theorem expect_mirrors (wanted : Wanted) (ts : List Token) :
    Mirrors (fun p r => r.1.symbol = p.value ∧ r.2 = p.rest) (Table.expect endLine wanted ts)
      (expect endLine wanted wanted.accepts ts) := by
  cases ts with
  | nil => exact .rejected _
  | cons t rest =>
    rw [Table.expect, expect]
    split
    · exact .ok ⟨rfl, rfl⟩
    · exact .rejected _

theorem expectWord_mirrors (wanted : Wanted) (ts : List Token) :
    Mirrors (fun p r => r = (p.value.token, p.rest)) (expectWord endLine wanted ts)
      (expect endLine wanted isIdentifier ts) := by
  cases ts with
  | nil => exact .rejected _
  | cons t rest =>
    obtain ⟨span, symbol⟩ := t
    cases symbol with
    | identifier name => exact .ok rfl
    | _ => exact .rejected _

/-- Word by word, behind the words that have been read. -/
theorem rounds_words_eq (read : List Word) (ts : List Token) :
    rounds (·.2.length) wordRound (read, ts) =
      .ok (read ++ (leadingWords ts).1, (leadingWords ts).2) := by
  induction ts generalizing read with
  | nil =>
    rw [rounds_of_last (show wordRound (read, []) = .ok (.last (read, [])) from rfl)]
    simp [leadingWords]
  | cons t rest ih =>
    obtain ⟨span, symbol⟩ := t
    cases symbol with
    | identifier name =>
      have hround : wordRound (read, ⟨span, .identifier name⟩ :: rest) =
          .ok (.next (read ++ [⟨span, name⟩], rest)) := rfl
      rw [rounds_of_next hround (Nat.lt_succ_self _), ih, List.append_assoc]
      rfl
    | _ =>
      rw [rounds_of_last (a := (read, _)) rfl]
      simp [leadingWords]

theorem words_eq (first : Word) (ts : List Token) :
    words first.token ts = .ok (first :: (leadingWords ts).1, (leadingWords ts).2) :=
  rounds_words_eq [first] ts

/-- The last of some words that follow each other is not before the first one. -/
theorem upTo_word {first : Word} {words : List Word} {last : Word}
    (h : Ordered (first.token :: ts)) (hts : words.map Word.token ++ rest = ts)
    (hlast : last ∈ first :: words) : first.span.UpTo last.span := by
  rcases List.mem_cons.mp hlast with rfl | hlast
  · exact last.span.upTo_refl
  · rw [← hts] at h
    exact h.upTo_of_mem (List.mem_append_left _ (List.mem_map_of_mem hlast))

/-! ### Arguments -/

theorem argumentType_mirrors {first : Word} (hts : Ordered (first.token :: ts)) :
    Mirrors (fun type r => r = (type, (leadingWords ts).2))
      (resolve (first :: (leadingWords ts).1)
        (first.span.extend ((leadingWords ts).1.getLast?.getD first).span))
      (argumentType first.token ts) := by
  have hlast : (first :: (leadingWords ts).1).getLast? =
      some ((leadingWords ts).1.getLast?.getD first) := List.getLast?_cons
  have hupTo : first.token.span.UpTo ((leadingWords ts).1.getLast?.getD first).span :=
    upTo_word hts (tokens_leadingWords ts) (List.mem_of_getLast? hlast)
  rw [argumentType, words_eq, ok_bind]
  simp only [← List.getLast?_eq_getElem?, hlast, extend_eq hupTo, ok_bind]
  exact (lift_mirrors _).bind_right fun type type' htype => ⟨_, rfl, htype ▸ rfl⟩

theorem argument_mirrors (hts : Ordered ts) :
    Mirrors (fun p r => r = (p.value, p.rest)) (Table.argument endLine ts)
      (argument endLine ts) := by
  cases ts with
  | nil => exact .rejected _
  | cons t rest =>
    obtain ⟨span, symbol⟩ := t
    cases symbol with
    | ellipsis => exact .ok rfl
    | identifier name =>
      have hwords : Ordered (Word.token ⟨span, name⟩ :: rest) := hts
      exact (argumentType_mirrors hwords).bind fun type r _ hr => hr ▸ .ok rfl
    | _ => exact .rejected _

/-- The arguments that are read agree with what the other reader knows of them: whether the last one
is variadic. -/
theorem rounds_arguments_mirrors {function : String} {afterVariadic : Bool} (read : List Argument)
    (hread : afterVariadic = decide (read.getLast? = some .variadic)) (hts : Ordered ts) :
    Mirrors (fun p r => r = (read ++ p.value, p.rest))
      (argumentsFrom endLine function afterVariadic ts)
      (rounds (·.2.length) (argumentRound endLine function) (read, ts)) := by
  induction afterVariadic, ts using argumentsFrom.induct generalizing read with
  | case1 afterVariadic ts ih =>
    rw [argumentsFrom, rounds_eq, argumentRound]
    simp only [bind_assoc]
    refine (argument_mirrors hts).bind fun arg r harg hr => ?_
    subst hr
    refine (expect_mirrors _ _).bind fun next r hnext hr => ?_
    obtain ⟨separator, after⟩ := r
    obtain ⟨hsymbol, rfl⟩ := hr
    dsimp only at hsymbol ⊢
    by_cases hlast : read.getLast? = some .variadic
    · rw [if_pos hlast, if_pos (hread.trans (decide_eq_true hlast))]
      exact .rejected _
    · have hafter : ¬ afterVariadic = true := by simpa [hread] using hlast
      rw [if_neg hlast, if_neg hafter, hsymbol]
      by_cases hclose : next.value = .parenClose
      · rw [if_pos hclose, if_pos hclose]
        exact .ok rfl
      · obtain ⟨run, hrun, _⟩ := exists_argument harg
        obtain ⟨_, hnext, _⟩ := exists_token_of_expect hnext
        have hothers := ih arg next (read ++ [arg.value.2]) (by rw [List.getLast?_concat]; simp)
          ((hts.of_append hrun).of_cons hnext)
        have hless := Nat.lt_trans next.shorter arg.shorter
        rw [if_neg hclose, if_neg hclose, pure_bind]
        dsimp only
        rw [if_pos hless]
        refine hothers.bind_left fun p r hp => ⟨_, rfl, ?_⟩
        rw [hp, List.append_assoc]
        rfl

theorem arguments_mirrors {function : String} (hts : Ordered ts) :
    Mirrors (fun p r => r = (p.value, p.rest)) (Table.arguments endLine function ts)
      (arguments endLine function ts) := by
  cases ts with
  | nil => exact rounds_arguments_mirrors [] rfl hts
  | cons t rest =>
    obtain ⟨span, symbol⟩ := t
    cases symbol with
    | parenClose => exact .ok rfl
    | _ => exact rounds_arguments_mirrors [] rfl hts

/-! ### Declarations -/

theorem result_mirrors {first : Word} {words : List Word} {name : Word}
    (h : first.span.UpTo name.span) :
    Mirrors (fun a b => b = a) (resolveResult words (first.span.extend name.span))
      (result first.token words name) := by
  unfold resolveResult result
  split
  · exact .ok rfl
  · rw [show extend first.token.span name.span = _ from extend_eq h]
    exact (lift_mirrors _).bind fun type type' _ htype => htype ▸ .ok rfl

theorem declaration_mirrors {defines : List String} {throws : Bool} {first : Word}
    (hts : Ordered (first.token :: ts)) :
    Mirrors (fun p r => r = (p.value, p.rest))
      (Table.declaration endLine defines throws first ts)
      (declaration endLine defines throws first.token ts) := by
  unfold Table.declaration declaration
  rw [words_eq, ok_bind]
  dsimp only
  cases hname : (leadingWords ts).1.getLast? with
  | none =>
    rw [List.getLast?_eq_none_iff.mp hname]
    exact .rejected _
  | some name =>
    have hne : (leadingWords ts).1 ≠ [] := by
      rintro hnone
      rw [hnone] at hname
      cases hname
    have hlast : (first :: (leadingWords ts).1).getLast? = some name := by
      rw [List.getLast?_cons, hname]
      rfl
    have hdrop : (first :: (leadingWords ts).1).dropLast = first :: (leadingWords ts).1.dropLast :=
      List.dropLast_cons_of_ne_nil hne
    have hupTo : first.span.UpTo name.span :=
      upTo_word hts (tokens_leadingWords ts) (List.mem_of_getLast? hlast)
    have hafter : Ordered (leadingWords ts).2 :=
      (hts.of_cons rfl).of_append (tokens_leadingWords ts).symm
    simp only [hlast, hdrop, if_neg (List.cons_ne_nil _ _)]
    refine (result_mirrors hupTo).bind fun result r _ hr => ?_
    subst hr
    refine (expect_mirrors _ _).bind fun paren r hparen hr => ?_
    obtain ⟨opening, inside⟩ := r
    obtain ⟨_, rfl⟩ := hr
    obtain ⟨_, hparen, _⟩ := exists_token_of_expect hparen
    have hinside : Ordered paren.rest := hafter.of_cons hparen
    refine (arguments_mirrors hinside).bind fun args r _ hr => ?_
    subst hr
    refine (expect_mirrors _ _).bind fun stop r _ hr => ?_
    obtain ⟨semicolon, after⟩ := r
    obtain ⟨_, rfl⟩ := hr
    exact .ok rfl

/-! ### Tables -/

section
variable {blocks : List Block}

theorem rounds_item (read : List Signature) (blocks : List Block) (t : Token) (rest : List Token) :
    rounds (·.rest.length) (itemRound endLine) ⟨read, blocks, t :: rest⟩ = (do
      let p ← item endLine read blocks t rest
      if p.rest.length < (t :: rest).length then rounds (·.rest.length) (itemRound endLine) p
      else throw (.lapse .standstill)) := by
  rw [rounds_eq, itemRound]
  simp only [bind_assoc, pure_bind]

/-- A block is opened in one round, and then what is inside of it is read. -/
theorem openBlock_mirrors (read : List Signature) {t : Token} {rest : List Token}
    (hts : Ordered (t :: rest))
    (hinside : ∀ (define : Parsed Word rest) (brace : Parsed Symbol define.rest),
      Ordered brace.rest → Mirrors (fun signatures r => r = read ++ signatures)
        (Table.items endLine
          (⟨t.span.extend define.value.span, define.value.name⟩ :: blocks) brace.rest)
        (rounds (·.rest.length) (itemRound endLine)
          ⟨read, ⟨t.span.extend define.value.span, define.value.name⟩ :: blocks, brace.rest⟩)) :
    Mirrors (fun signatures r => r = read ++ signatures)
      (do
        let define ← expectWord endLine .defineName rest
        let brace ← Table.expect endLine .openBrace define.rest
        Table.items endLine (⟨t.span.extend define.value.span, define.value.name⟩ :: blocks)
          brace.rest)
      (do
        let p ← openBlock endLine read blocks t rest
        if p.rest.length < (t :: rest).length then rounds (·.rest.length) (itemRound endLine) p
        else throw (.lapse .standstill)) := by
  simp only [openBlock, bind_assoc]
  refine (expectWord_mirrors _ _).bind fun define r hdefine hr => ?_
  subst hr
  simp only [Word.token, bind_assoc]
  refine (expect_mirrors _ _).bind fun brace r hbrace hr => ?_
  obtain ⟨opening, inside⟩ := r
  obtain ⟨_, rfl⟩ := hr
  have hrest := tokens_of_expectWord hdefine
  obtain ⟨_, hu, _⟩ := exists_token_of_expect hbrace
  have hupTo : t.span.UpTo define.value.span := hts.upTo_head hrest
  have hordered : Ordered brace.rest := ((hts.of_cons rfl).of_cons hrest).of_cons hu
  have hless := Nat.lt_succ_of_lt (Nat.lt_trans brace.shorter define.shorter)
  rw [extend_eq hupTo, ok_bind, pure_bind]
  dsimp only
  rw [List.length_cons, if_pos hless]
  exact hinside define brace hordered

/-- A declaration is read in one round, and then what follows it. -/
theorem declared_mirrors (read : List Signature) {throws : Bool} {first : Word} {n : Nat}
    (hts : Ordered (first.token :: ts)) (hn : ts.length < n)
    (hafter : ∀ (declared : Parsed Signature ts) (read : List Signature),
      Ordered declared.rest → Mirrors (fun signatures r => r = read ++ signatures)
        (Table.items endLine blocks declared.rest)
        (rounds (·.rest.length) (itemRound endLine) ⟨read, blocks, declared.rest⟩)) :
    Mirrors (fun signatures r => r = read ++ signatures)
      (do
        let declared ← Table.declaration endLine (blocks.map Block.define).reverse throws first ts
        return declared.value :: (← Table.items endLine blocks declared.rest))
      (do
        let p ← nextDeclaration endLine read blocks throws first.token ts
        if p.rest.length < n then rounds (·.rest.length) (itemRound endLine) p
        else throw (.lapse .standstill)) := by
  simp only [nextDeclaration, bind_assoc, pure_bind]
  refine (declaration_mirrors hts).bind fun declared r hdeclared hr => ?_
  subst hr
  obtain ⟨front, stop, hfront, _⟩ := exists_declaration hdeclared
  rw [List.append_cons] at hfront
  have hordered : Ordered declared.rest := (hts.of_cons rfl).of_append hfront
  dsimp only
  rw [if_pos (Nat.lt_trans declared.shorter hn)]
  refine (hafter declared (read ++ [declared.value]) hordered).bind_left fun others r hr =>
    ⟨_, rfl, ?_⟩
  rw [hr, List.append_assoc]
  rfl

/-- Item by item, behind the signatures that have been read. -/
theorem rounds_items_mirrors (read : List Signature) (hts : Ordered ts) :
    Mirrors (fun signatures r => r = read ++ signatures) (Table.items endLine blocks ts)
      (rounds (·.rest.length) (itemRound endLine) ⟨read, blocks, ts⟩) := by
  induction blocks, ts using items.induct generalizing read with
  | case1 =>
    rw [Table.items, rounds_of_last (a := read) rfl]
    exact .ok (List.append_nil read).symm
  | case2 block tail =>
    have hround : itemRound endLine ⟨read, block :: tail, []⟩ =
        .error (.rejected (.unclosedBlock block.span block.define)) := rfl
    rw [Table.items, rounds_of_error hround]
    exact .rejected _
  | case3 blocks t rest ht ih =>
    have hitem : item endLine read blocks t rest = openBlock endLine read blocks t rest := by
      simp only [item, ht]
    rw [items_keywordIf ht, rounds_item, hitem]
    exact openBlock_mirrors read hts fun define brace => ih define brace read
  | case4 t rest ht =>
    have hitem : item endLine read [] t rest =
        .error (.rejected (.unexpected t.span .declaration .braceClose)) := by
      simp only [item, ht]
      rfl
    rw [items_braceClose_outside ht, rounds_item, hitem]
    exact .rejected _
  | case5 t rest ht block tail ih =>
    have hitem : item endLine read (block :: tail) t rest = .ok ⟨read, tail, rest⟩ := by
      simp only [item, ht]
      rfl
    have hless : rest.length < (t :: rest).length := Nat.lt_succ_self _
    rw [items_braceClose ht, rounds_item, hitem, ok_bind, if_pos hless]
    exact ih read (hts.of_cons rfl)
  | case6 blocks t rest ht ih =>
    have hitem : item endLine read blocks t rest = (do
        let r ← expect endLine .returnType isIdentifier rest
        nextDeclaration endLine read blocks true r.1 r.2) := by
      simp only [item, ht]
    rw [items_keywordThrows ht, rounds_item, hitem, bind_assoc]
    refine (expectWord_mirrors _ _).bind fun first r hfirst hr => ?_
    subst hr
    have hwords : Ordered (first.value.token :: first.rest) :=
      tokens_of_expectWord hfirst ▸ hts.of_cons rfl
    exact declared_mirrors read hwords (Nat.lt_succ_of_lt first.shorter) (ih first)
  | case7 blocks t rest name ht ih =>
    obtain ⟨span, symbol⟩ := t
    have hitem : item endLine read blocks ⟨span, symbol⟩ rest =
        nextDeclaration endLine read blocks false (Word.token ⟨span, name⟩) rest := by
      subst ht
      rfl
    rw [items_identifier ht, rounds_item, hitem]
    subst ht
    exact declared_mirrors read hts (Nat.lt_succ_self _) ih
  | case8 blocks t rest hif hclose hthrows hname =>
    obtain ⟨span, symbol⟩ := t
    have hitem : item endLine read blocks ⟨span, symbol⟩ rest =
        .error (.rejected (.unexpected span .declaration symbol)) := by
      cases symbol with
      | keywordIf => exact absurd rfl hif
      | braceClose => exact absurd rfl hclose
      | keywordThrows => exact absurd rfl hthrows
      | identifier name => exact absurd rfl (hname name)
      | _ => rfl
    rw [items_other hif hclose hthrows hname, rounds_item, hitem]
    exact .rejected _

end

theorem parse_mirrors (source : String) :
    Mirrors (fun signatures r => r = signatures) (Table.parse source) (parse source) := by
  refine (tokens_mirrors source).bind fun ts us hts hus => ?_
  subst hus
  exact rounds_items_mirrors [] (ordered_tokens hts)

/-- On any text at all the reader on guard has no lapse: spans are extended by spans that are not
before them, the words of an argument have a last one, what is taken for a name is an identifier,
names are cut out between characters, and each round of a loop gets on. It reads what the reader of
tables reads, and rejects what that one rejects. Its positions are those of counters of 32 bits in
texts of fewer than `2 ^ 32` characters. -/
theorem parse_no_lapse (source : String) :
    (∀ lapse, parse source ≠ .error (.lapse lapse)) ∧
      parse source = (Table.parse source).mapError Stop.rejected := by
  have h := parse_mirrors source
  generalize Table.parse source = result at h ⊢
  generalize parse source = guarded at h ⊢
  cases h with
  | ok related =>
    subst related
    exact ⟨fun lapse h => (by cases h), rfl⟩
  | rejected e => exact ⟨fun lapse h => (by cases h), rfl⟩

end CapFixture.Table.Guarded
