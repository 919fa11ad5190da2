import CapFixture.Proofs.Results
import CapFixture.Proofs.Table.Grammar

/-!
# Reading declarations

Every reader of a part of a declaration takes off the front of its tokens exactly what the grammar
derives. Each is proved in both directions: what is read derives, and what derives is read,
whatever follows it.
-/

namespace CapFixture

theorem ValueType.name_of_ofName? {s : String} {type : ValueType}
    (h : ValueType.ofName? s = some type) : type.name = s := by
  simpa using List.find?_some h

namespace Table

variable {endLine : Nat}

/-! ### Spelling -/

theorem resolve_eq_ok_iff {words : List Word} {span : Span} {type : ValueType} :
    resolve words span = .ok type ↔ " ".intercalate (words.map Word.name) = type.name := by
  unfold resolve joinWords
  constructor
  · intro h
    split at h
    · next found hfound =>
      cases h
      exact (ValueType.name_of_ofName? hfound).symm
    · cases h
  · intro h
    rw [h, ValueType.ofName?_name]

theorem resolveResult_eq_ok_iff {words : List Word} {span : Span} {result : Result} :
    resolveResult words span = .ok result ↔
      " ".intercalate (words.map Word.name) = result.name := by
  unfold resolveResult
  by_cases hv : joinWords words = "void"
  · rw [if_pos hv]
    unfold joinWords at hv
    constructor
    · intro h
      cases h
      exact hv
    · intro h
      have := Result.ofName?_name result
      rw [← h, hv] at this
      cases this
      rfl
  · rw [if_neg hv]
    unfold joinWords at hv
    constructor
    · intro h
      obtain ⟨type, ht, h⟩ := bind_eq_ok_iff.mp h
      cases h
      exact resolve_eq_ok_iff.mp ht
    · intro h
      cases result with
      | void => exact absurd h hv
      | value type => exact bind_eq_ok_iff.mpr ⟨type, resolve_eq_ok_iff.mpr h, rfl⟩

/-! ### Single tokens and runs of words -/

theorem Wanted.accepts_iff {wanted : Wanted} {symbol : Symbol} :
    wanted.accepts symbol = true ↔
      (wanted, symbol) ∈ [(.openBrace, .braceOpen), (.openParen, .parenOpen),
        (.separator, .comma), (.separator, .parenClose), (.semicolon, .semicolon)] := by
  cases wanted <;> cases symbol <;> simp [Wanted.accepts]

theorem symbols_of_expect {wanted : Wanted} {ts : List Token} {p : Parsed Symbol ts}
    (h : expect endLine wanted ts = .ok p) :
    wanted.accepts p.value = true ∧
      ts.map Token.symbol = p.value :: p.rest.map Token.symbol := by
  cases ts with
  | nil => cases h
  | cons t rest =>
    rw [expect] at h
    split at h
    · next ha =>
      cases h
      exact ⟨ha, rfl⟩
    · cases h

theorem expect_of_symbols (endLine : Nat) (wanted : Wanted) {ts : List Token} {symbol : Symbol}
    {rest : List Symbol} (h : ts.map Token.symbol = symbol :: rest)
    (ha : wanted.accepts symbol = true) :
    ∃ p, expect endLine wanted ts = .ok p ∧ p.value = symbol ∧
      p.rest.map Token.symbol = rest := by
  obtain ⟨t, ts', rfl, rfl, hr⟩ := List.map_eq_cons_iff.mp h
  refine ⟨⟨t.symbol, ts', by simp⟩, ?_, rfl, hr⟩
  rw [expect, if_pos ha]

theorem symbols_of_expectWord {wanted : Wanted} {ts : List Token} {p : Parsed Word ts}
    (h : expectWord endLine wanted ts = .ok p) :
    ts.map Token.symbol = .identifier p.value.name :: p.rest.map Token.symbol := by
  cases ts with
  | nil => cases h
  | cons t rest =>
    rw [expectWord] at h
    split at h
    · next name hn =>
      cases h
      rw [List.map_cons, hn]
    · cases h

theorem expectWord_of_symbols (endLine : Nat) (wanted : Wanted) {ts : List Token}
    {name : String} {rest : List Symbol} (h : ts.map Token.symbol = .identifier name :: rest) :
    ∃ p, expectWord endLine wanted ts = .ok p ∧ p.value.name = name ∧
      p.rest.map Token.symbol = rest := by
  obtain ⟨t, ts', rfl, hn, hr⟩ := List.map_eq_cons_iff.mp h
  refine ⟨⟨⟨t.span, name⟩, ts', by simp⟩, ?_, rfl, hr⟩
  rw [expectWord]
  split
  · next other ho =>
    rw [hn] at ho
    cases ho
    rfl
  · next hne => exact absurd hn (hne name)

/-- Whether the symbols go on with an identifier. -/
def StartsWord (symbols : List Symbol) : Prop := ∃ name, symbols.head? = some (.identifier name)

theorem symbols_leadingWords (ts : List Token) :
    ts.map Token.symbol = identifiers ((leadingWords ts).1.map Word.name) ++
      (leadingWords ts).2.map Token.symbol := by
  induction ts with
  | nil => rfl
  | cons t rest ih =>
    unfold leadingWords
    split
    · next name hn =>
      rw [List.map_cons, ih, hn]
      rfl
    · rfl

theorem leadingWords_of_symbols {ts : List Token} {names : List String} {rest : List Symbol}
    (h : ts.map Token.symbol = identifiers names ++ rest) (hr : ¬ StartsWord rest) :
    (leadingWords ts).1.map Word.name = names ∧
      (leadingWords ts).2.map Token.symbol = rest := by
  induction names generalizing ts with
  | nil =>
    cases ts with
    | nil => exact ⟨rfl, h⟩
    | cons t ts =>
      unfold leadingWords
      split
      · next name hn =>
        refine absurd ⟨name, ?_⟩ hr
        rw [show rest = t.symbol :: ts.map Token.symbol from h.symm, hn]
        rfl
      · exact ⟨rfl, h⟩
  | cons name names ih =>
    obtain ⟨t, ts', rfl, hn, hts⟩ := List.map_eq_cons_iff.mp h
    obtain ⟨hw, hs⟩ := ih hts
    unfold leadingWords
    split
    · next other ho =>
      rw [hn] at ho
      cases ho
      exact ⟨by rw [List.map_cons, hw], hs⟩
    · next hne => exact absurd hn (hne name)

/-! ### Arguments -/

theorem derives_of_argument {ts : List Token} {p : Parsed (Span × Argument) ts}
    (h : argument endLine ts = .ok p) :
    ∃ symbols, DerivesArgument symbols p.value.2 ∧
      ts.map Token.symbol = symbols ++ p.rest.map Token.symbol := by
  cases ts with
  | nil => cases h
  | cons t rest =>
    rw [argument] at h
    split at h
    · next he =>
      cases h
      exact ⟨[.ellipsis], .variadic, by rw [List.map_cons, he]; rfl⟩
    · next name hn =>
      obtain ⟨type, ht, h⟩ := bind_eq_ok_iff.mp h
      cases h
      have hs := resolve_eq_ok_iff.mp ht
      refine ⟨_, .value (by simp) hs, ?_⟩
      rw [List.map_cons, hn, symbols_leadingWords rest]
      rfl
    · cases h

theorem argument_of_derives (endLine : Nat) {ts : List Token} {symbols rest : List Symbol}
    {arg : Argument}
    (hd : DerivesArgument symbols arg) (h : ts.map Token.symbol = symbols ++ rest)
    (hr : ¬ StartsWord rest) :
    ∃ p, argument endLine ts = .ok p ∧ p.value.2 = arg ∧ p.rest.map Token.symbol = rest := by
  cases hd with
  | variadic =>
    obtain ⟨t, ts', rfl, he, hts⟩ := List.map_eq_cons_iff.mp h
    refine ⟨⟨(t.span, .variadic), ts', by simp⟩, ?_, rfl, hts⟩
    rw [argument]
    split
    · rfl
    · next hn => rw [he] at hn; cases hn
    · next hne _ => exact absurd he hne
  | @value names type hne hs =>
    obtain ⟨name, names, rfl⟩ := List.exists_cons_of_ne_nil hne
    obtain ⟨t, ts', rfl, hn, hts⟩ := List.map_eq_cons_iff.mp h
    obtain ⟨hw, hrest⟩ := leadingWords_of_symbols hts hr
    rw [argument]
    split
    · next he => rw [hn] at he; cases he
    · next other ho =>
      rw [hn] at ho
      cases ho
      refine ⟨_, bind_eq_ok_iff.mpr ⟨type, resolve_eq_ok_iff.mpr ?_, rfl⟩, rfl, hrest⟩
      rw [List.map_cons, hw]
      exact hs
    · next hne => exact absurd hn (hne name)

theorem derives_of_argumentsFrom {function : String} {afterVariadic : Bool} {ts : List Token}
    {p : Parsed (List Argument) ts} (h : argumentsFrom endLine function afterVariadic ts = .ok p) :
    afterVariadic = false ∧ ∃ symbols, DerivesSeparated symbols p.value ∧
      ts.map Token.symbol = symbols ++ .parenClose :: p.rest.map Token.symbol := by
  -- along the reader, which passes on whether the argument before was variadic
  induction afterVariadic, ts using argumentsFrom.induct with
  | case1 afterVariadic ts ih =>
    rw [argumentsFrom] at h
    obtain ⟨arg, harg, h⟩ := bind_eq_ok_iff.mp h
    obtain ⟨next, hnext, h⟩ := bind_eq_ok_iff.mp h
    obtain ⟨s, hd, hs⟩ := derives_of_argument harg
    obtain ⟨hseparator, hrest⟩ := symbols_of_expect hnext
    rw [hrest] at hs
    dsimp only at h
    split at h
    · cases h
    · next hfirst =>
      refine ⟨by simpa using hfirst, ?_⟩
      split at h
      · next hclose =>
        cases h
        rw [hclose] at hs
        exact ⟨s, .last hd, hs⟩
      · next hopen =>
        obtain ⟨others, hothers, h⟩ := bind_eq_ok_iff.mp h
        cases h
        obtain ⟨hvalue, s', hd', hs'⟩ := ih arg next hothers
        have hcomma : next.value = .comma := by
          simpa [hopen] using Wanted.accepts_iff.mp hseparator
        -- what follows is read only if this argument was not variadic
        cases ha : arg.value.2 with
        | variadic => simp [ha] at hvalue
        | value type =>
          rw [ha] at hd
          refine ⟨s ++ .comma :: s', ?_, ?_⟩
          · exact .more hd hd'
          · rw [hs, hcomma, hs']
            simp

theorem argumentsFrom_of_derives (endLine : Nat) (function : String) {ts : List Token}
    {symbols rest : List Symbol} {args : List Argument} (hd : DerivesSeparated symbols args)
    (h : ts.map Token.symbol = symbols ++ .parenClose :: rest) :
    ∃ p, argumentsFrom endLine function false ts = .ok p ∧ p.value = args ∧
      p.rest.map Token.symbol = rest := by
  induction hd generalizing ts with
  | @last s arg ha =>
    obtain ⟨a, hread, rfl, hafter⟩ := argument_of_derives endLine ha h
      (by rintro ⟨name, hn⟩; cases hn)
    obtain ⟨next, hnext, hclose, hrest⟩ := expect_of_symbols endLine .separator hafter rfl
    refine ⟨⟨[a.value.2], next.rest, Nat.lt_trans next.shorter a.shorter⟩, ?_, rfl, hrest⟩
    rw [argumentsFrom]
    refine bind_eq_ok_iff.mpr ⟨a, hread, bind_eq_ok_iff.mpr ⟨next, hnext, ?_⟩⟩
    simp [hclose, pure, Except.pure]
  | @more s srest type args ha _ ih =>
    rw [List.append_assoc] at h
    obtain ⟨a, hread, hvalue, hafter⟩ := argument_of_derives endLine ha h
      (by rintro ⟨name, hn⟩; cases hn)
    obtain ⟨next, hnext, hcomma, hrest⟩ := expect_of_symbols endLine .separator hafter rfl
    obtain ⟨others, hothers, rfl, hend⟩ := ih hrest
    refine ⟨⟨.value type :: others.value, others.rest, Nat.lt_trans others.shorter
      (Nat.lt_trans next.shorter a.shorter)⟩, ?_, rfl, hend⟩
    rw [argumentsFrom]
    refine bind_eq_ok_iff.mpr ⟨a, hread, bind_eq_ok_iff.mpr ⟨next, hnext, ?_⟩⟩
    simp [hcomma, hvalue, hothers, pure, Except.pure, bind, Except.bind]

theorem derives_of_arguments {function : String} {ts : List Token}
    {p : Parsed (List Argument) ts} (h : arguments endLine function ts = .ok p) :
    ∃ symbols, DerivesArguments symbols p.value ∧
      ts.map Token.symbol = symbols ++ .parenClose :: p.rest.map Token.symbol := by
  unfold arguments at h
  split at h
  · cases h
    exact ⟨[], .none, rfl⟩
  · obtain ⟨_, s, hd, hs⟩ := derives_of_argumentsFrom h
    exact ⟨s, .some hd, hs⟩

theorem DerivesSeparated.head_ne_parenClose {symbols : List Symbol} {args : List Argument}
    (hd : DerivesSeparated symbols args) (rest : List Symbol) :
    (symbols ++ rest).head? ≠ some .parenClose := by
  have harg : ∀ {s : List Symbol} {arg : Argument} (rest : List Symbol), DerivesArgument s arg →
      (s ++ rest).head? ≠ some .parenClose := by
    intro s arg rest ha
    cases ha with
    | variadic => simp
    | @value names type hne _ =>
      obtain ⟨name, names, rfl⟩ := List.exists_cons_of_ne_nil hne
      simp [identifiers]
  cases hd with
  | last ha => exact harg rest ha
  | more ha _ =>
    rw [List.append_assoc]
    exact harg _ ha

theorem arguments_of_derives (endLine : Nat) (function : String) {ts : List Token}
    {symbols rest : List Symbol} {args : List Argument} (hd : DerivesArguments symbols args)
    (h : ts.map Token.symbol = symbols ++ .parenClose :: rest) :
    ∃ p, arguments endLine function ts = .ok p ∧ p.value = args ∧
      p.rest.map Token.symbol = rest := by
  unfold arguments
  cases hd with
  | none =>
    obtain ⟨⟨span, symbol⟩, ts', rfl, rfl, hr⟩ := List.map_eq_cons_iff.mp h
    exact ⟨⟨[], ts', by simp⟩, rfl, rfl, hr⟩
  | some hs =>
    split
    · next span ts' =>
      have := hs.head_ne_parenClose (.parenClose :: rest)
      rw [← h] at this
      exact absurd rfl this
    · exact argumentsFrom_of_derives endLine function hs h

/-! ### Declarations -/

theorem derives_of_declaration {defines : List String} {throws : Bool} {first : Word}
    {ts : List Token} {p : Parsed Signature ts}
    (h : declaration endLine defines throws first ts = .ok p) :
    ∃ symbols, DerivesDeclaration defines (throwsMark throws ++ .identifier first.name :: symbols)
        p.value ∧
      ts.map Token.symbol = symbols ++ p.rest.map Token.symbol := by
  unfold declaration at h
  dsimp only at h
  split at h
  · cases h
  · next name hname =>
    obtain ⟨result, hresult, h⟩ := bind_eq_ok_iff.mp h
    obtain ⟨paren, hparen, h⟩ := bind_eq_ok_iff.mp h
    obtain ⟨args, hargs, h⟩ := bind_eq_ok_iff.mp h
    obtain ⟨stop, hstop, h⟩ := bind_eq_ok_iff.mp h
    cases h
    obtain ⟨ho, hparen⟩ := symbols_of_expect hparen
    obtain ⟨s, hd, hargs⟩ := derives_of_arguments hargs
    obtain ⟨hc, hstop⟩ := symbols_of_expect hstop
    have hopen : paren.value = .parenOpen := by simpa using Wanted.accepts_iff.mp ho
    have hsemi : stop.value = .semicolon := by simpa using Wanted.accepts_iff.mp hc
    have hwords : (leadingWords ts).1 = (leadingWords ts).1.dropLast ++ [name] :=
      (List.dropLast_append_getLast? name hname).symm
    have hspelled := resolveResult_eq_ok_iff.mp hresult
    rw [List.map_cons] at hspelled
    refine ⟨_, .intro (by simp) hspelled hd, ?_⟩
    rw [symbols_leadingWords ts, hwords, hparen, hargs, hstop, hopen, hsemi]
    simp [identifiers]

theorem declaration_of_symbols (endLine : Nat) (defines : List String) (throws : Bool)
    (first : Word) {names : List String} {name : String} {result : Result}
    {args : List Argument} {ts : List Token} {symbols rest : List Symbol}
    (hspelled : " ".intercalate (first.name :: names) = result.name)
    (hargs : DerivesArguments symbols args)
    (h : ts.map Token.symbol = identifiers (names ++ [name]) ++
      .parenOpen :: (symbols ++ .parenClose :: .semicolon :: rest)) :
    ∃ p, declaration endLine defines throws first ts = .ok p ∧
      p.value = ⟨name, result, throws, args, defines⟩ ∧ p.rest.map Token.symbol = rest := by
  obtain ⟨hwords, hafter⟩ := leadingWords_of_symbols h (by rintro ⟨other, ho⟩; cases ho)
  -- the last of the words is the name, the others are what is returned
  obtain ⟨ws, w, hsplit, hws, rfl⟩ : ∃ ws w, (leadingWords ts).1 = ws ++ [w] ∧
      ws.map Word.name = names ∧ w.name = name := by
    obtain ⟨ws, tail, hsplit, hws, htail⟩ := List.map_eq_append_iff.mp hwords
    obtain ⟨w, none, rfl, hw, hnone⟩ := List.map_eq_cons_iff.mp htail
    rw [List.map_eq_nil_iff] at hnone
    exact ⟨ws, w, by rw [hsplit, hnone], hws, hw⟩
  obtain ⟨paren, hparen, _, hinside⟩ := expect_of_symbols endLine .openParen hafter rfl
  obtain ⟨read, hread, rfl, hclosed⟩ := arguments_of_derives endLine w.name hargs hinside
  obtain ⟨stop, hstop, _, hend⟩ := expect_of_symbols endLine .semicolon hclosed rfl
  have hlast : (leadingWords ts).1.getLast? = some w := by rw [hsplit, List.getLast?_concat]
  have hresult : resolveResult (first :: (leadingWords ts).1.dropLast)
      (first.span.extend w.span) = .ok result := by
    rw [resolveResult_eq_ok_iff, hsplit, List.dropLast_concat, List.map_cons, hws]
    exact hspelled
  refine ⟨⟨_, stop.rest, ?_⟩, ?_, rfl, hend⟩
  · have := length_leadingWords_le ts
    have := paren.shorter
    have := read.shorter
    have := stop.shorter
    omega
  · unfold declaration
    dsimp only
    split
    · next hnone => rw [hlast] at hnone; cases hnone
    · next other ho =>
      rw [hlast] at ho
      cases ho
      exact bind_eq_ok_iff.mpr ⟨result, hresult, bind_eq_ok_iff.mpr ⟨paren, hparen,
        bind_eq_ok_iff.mpr ⟨read, hread, bind_eq_ok_iff.mpr ⟨stop, hstop, rfl⟩⟩⟩⟩

end Table

end CapFixture
