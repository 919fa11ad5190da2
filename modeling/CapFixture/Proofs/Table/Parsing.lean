import CapFixture.Proofs.Table.Declaration

/-!
# Reading tables

A text without unrecognized lexemes is read exactly if its symbols derive from the grammar, and
then as the signatures of the derivation.
-/

namespace CapFixture.Table

variable {endLine : Nat}

/-- What is left of a table inside open blocks, innermost first: the rest of each block up to its
brace, and then what is left outside of it. -/
inductive DerivesInside : List String → List Symbol → List Signature → Prop where
  | outside {symbols : List Symbol} {signatures : List Signature}
      (derives : Derives [] symbols signatures) : DerivesInside [] symbols signatures
  | close {define : String} {blocks : List String} {body rest : List Symbol}
      {inner outer : List Signature} (body_derives : Derives (define :: blocks).reverse body inner)
      (rest_derives : DerivesInside blocks rest outer) :
      DerivesInside (define :: blocks) (body ++ .braceClose :: rest) (inner ++ outer)

/-- What can be put in front of a table can be put in front of what is left of one. -/
theorem DerivesInside.prepend (front : List Symbol) (first : List Signature)
    {blocks : List String} {rest : List Symbol} {signatures : List Signature}
    (h : DerivesInside blocks rest signatures)
    (hfront : ∀ {symbols sigs}, Derives blocks.reverse symbols sigs →
      Derives blocks.reverse (front ++ symbols) (first ++ sigs)) :
    DerivesInside blocks (front ++ rest) (first ++ signatures) := by
  cases h with
  | outside hd => exact .outside (hfront hd)
  | close hd hrest =>
    rw [← List.append_assoc, ← List.append_assoc]
    exact .close (hfront hd) hrest

section
variable {blocks : List Block} {t : Token} {rest : List Token}

theorem items_keywordIf (ht : t.symbol = .keywordIf) :
    items endLine blocks (t :: rest) = (do
      let define ← expectWord endLine .defineName rest
      let brace ← expect endLine .openBrace define.rest
      items endLine (⟨t.span.extend define.value.span, define.value.name⟩ :: blocks)
        brace.rest) := by
  rw [items.eq_def]
  simp only [ht]

theorem items_keywordThrows (ht : t.symbol = .keywordThrows) :
    items endLine blocks (t :: rest) = (do
      let first ← expectWord endLine .returnType rest
      let declared ← declaration endLine (blocks.map Block.define).reverse true first.value
        first.rest
      return declared.value :: (← items endLine blocks declared.rest)) := by
  rw [items.eq_def]
  simp only [ht]

theorem items_identifier {name : String} (ht : t.symbol = .identifier name) :
    items endLine blocks (t :: rest) = (do
      let declared ← declaration endLine (blocks.map Block.define).reverse false ⟨t.span, name⟩
        rest
      return declared.value :: (← items endLine blocks declared.rest)) := by
  rw [items.eq_def]
  simp only [ht]

theorem items_braceClose {block : Block} (ht : t.symbol = .braceClose) :
    items endLine (block :: blocks) (t :: rest) = items endLine blocks rest := by
  rw [items.eq_def]
  simp only [ht]

/-- There is no block to close. -/
theorem items_braceClose_outside (ht : t.symbol = .braceClose) :
    items endLine [] (t :: rest) = .error (.unexpected t.span .declaration .braceClose) := by
  rw [items.eq_def]
  simp only [ht]
  rfl

/-- No other symbol starts an item. -/
theorem items_other (hif : t.symbol ≠ .keywordIf) (hclose : t.symbol ≠ .braceClose)
    (hthrows : t.symbol ≠ .keywordThrows) (hname : ∀ name, t.symbol ≠ .identifier name) :
    items endLine blocks (t :: rest) = .error (.unexpected t.span .declaration t.symbol) := by
  rw [items.eq_def]
  dsimp only
  split
  · next ht => exact absurd ht hif
  · next ht => exact absurd ht hclose
  · next ht => exact absurd ht hthrows
  · next name ht => exact absurd ht (hname name)
  · rfl

end

theorem derives_of_items {blocks : List Block} {ts : List Token} {signatures : List Signature}
    (h : items endLine blocks ts = .ok signatures) :
    DerivesInside (blocks.map Block.define) (ts.map Token.symbol) signatures := by
  induction blocks, ts using items.induct generalizing signatures with
  | case1 =>
    rw [items] at h
    cases h
    exact .outside .nil
  | case2 block tail =>
    rw [items] at h
    cases h
  | case3 blocks t rest ht ih =>
    rw [items_keywordIf ht] at h
    obtain ⟨define, hdefine, h⟩ := bind_eq_ok_iff.mp h
    obtain ⟨brace, hbrace, h⟩ := bind_eq_ok_iff.mp h
    have hname := symbols_of_expectWord hdefine
    obtain ⟨ha, hopen⟩ := symbols_of_expect hbrace
    have hv : brace.value = .braceOpen := by simpa using Wanted.accepts_iff.mp ha
    have hinside := ih define brace h
    generalize hs : brace.rest.map Token.symbol = s at hinside
    rw [List.map_cons, ht, hname, hopen, hv, hs]
    -- the block that was opened is the innermost one that what is left must close
    cases hinside with
    | @close _ _ body rest inner outer hbody houter =>
      rw [List.reverse_cons] at hbody
      have hblock : ∀ {symbols sigs}, Derives (blocks.map Block.define).reverse symbols sigs →
          Derives (blocks.map Block.define).reverse
            ((.keywordIf :: .identifier define.value.name :: .braceOpen ::
              (body ++ [.braceClose])) ++ symbols) (inner ++ sigs) := by
        intro symbols sigs hd
        simpa using Derives.block hbody hd
      simpa using houter.prepend _ inner hblock
  | case4 t rest ht =>
    rw [items_braceClose_outside ht] at h
    cases h
  | case5 t rest ht block tail ih =>
    rw [items_braceClose ht] at h
    rw [List.map_cons, List.map_cons, ht]
    exact .close .nil (ih h)
  | case6 blocks t rest ht ih =>
    rw [items_keywordThrows ht] at h
    obtain ⟨first, hfirst, h⟩ := bind_eq_ok_iff.mp h
    obtain ⟨declared, hdeclared, h⟩ := bind_eq_ok_iff.mp h
    obtain ⟨others, hothers, h⟩ := bind_eq_ok_iff.mp h
    cases h
    obtain ⟨s, hd, hs⟩ := derives_of_declaration hdeclared
    have := (ih first declared hothers).prepend _ [declared.value]
      (fun hd' => .declaration hd hd')
    rw [List.map_cons, ht, symbols_of_expectWord hfirst, hs]
    simpa [throwsMark] using this
  | case7 blocks t rest name ht ih =>
    rw [items_identifier ht] at h
    obtain ⟨declared, hdeclared, h⟩ := bind_eq_ok_iff.mp h
    obtain ⟨others, hothers, h⟩ := bind_eq_ok_iff.mp h
    cases h
    obtain ⟨s, hd, hs⟩ := derives_of_declaration hdeclared
    have := (ih declared hothers).prepend _ [declared.value]
      (fun hd' => .declaration hd hd')
    rw [List.map_cons, ht, hs]
    simpa [throwsMark] using this
  | case8 blocks t rest hif hclose hthrows hname =>
    rw [items_other hif hclose hthrows hname] at h
    cases h

/-- What follows a declaration is read after it. -/
theorem items_after_declaration {blocks : List Block} {ts : List Token} {throws : Bool}
    {first : Word} {p : Parsed Signature ts}
    (h : declaration endLine (blocks.map Block.define).reverse throws first ts = .ok p) :
    (do
      let declared ← declaration endLine (blocks.map Block.define).reverse throws first ts
      return declared.value :: (← items endLine blocks declared.rest)) =
    (p.value :: ·) <$> items endLine blocks p.rest := by
  rw [h]
  change (do return p.value :: (← items endLine blocks p.rest)) = _
  cases items endLine blocks p.rest <;> rfl

theorem items_of_declaration (endLine : Nat) {blocks : List Block} {symbols rest : List Symbol}
    {signature : Signature} {ts : List Token}
    (hd : DerivesDeclaration (blocks.map Block.define).reverse symbols signature)
    (h : ts.map Token.symbol = symbols ++ rest) :
    ∃ ts', ts'.map Token.symbol = rest ∧
      items endLine blocks ts = (signature :: ·) <$> items endLine blocks ts' := by
  cases hd with
  | @intro throws names name result inside args hne hspelled hargs =>
    obtain ⟨first, names, rfl⟩ := List.exists_cons_of_ne_nil hne
    cases throws with
    | false =>
      obtain ⟨t, ts, rfl, ht, hfirst⟩ := List.map_eq_cons_iff.mp h
      have hsymbols : ts.map Token.symbol = identifiers (names ++ [name]) ++
          .parenOpen :: (inside ++ .parenClose :: .semicolon :: rest) := by
        simpa [identifiers] using hfirst
      obtain ⟨declared, hdeclared, hvalue, hafter⟩ := declaration_of_symbols endLine
        (blocks.map Block.define).reverse false ⟨t.span, first⟩ hspelled hargs hsymbols
      refine ⟨declared.rest, hafter, ?_⟩
      rw [items_identifier ht, items_after_declaration hdeclared, hvalue]
    | true =>
      obtain ⟨t, ts, rfl, ht, hthrows⟩ := List.map_eq_cons_iff.mp h
      obtain ⟨word, hword, rfl, hfirst⟩ := expectWord_of_symbols endLine .returnType hthrows
      have hsymbols : word.rest.map Token.symbol = identifiers (names ++ [name]) ++
          .parenOpen :: (inside ++ .parenClose :: .semicolon :: rest) := by
        simpa [identifiers] using hfirst
      obtain ⟨declared, hdeclared, hvalue, hafter⟩ := declaration_of_symbols endLine
        (blocks.map Block.define).reverse true word.value hspelled hargs hsymbols
      refine ⟨declared.rest, hafter, ?_⟩
      rw [items_keywordThrows ht, hword, ← hvalue]
      exact items_after_declaration hdeclared

/-- What derives is read first, and then whatever follows it. -/
theorem items_of_derives (endLine : Nat) {defines : List String} {symbols : List Symbol}
    {signatures : List Signature} (hd : Derives defines symbols signatures) {blocks : List Block}
    {ts : List Token} {rest : List Symbol} (hb : (blocks.map Block.define).reverse = defines)
    (h : ts.map Token.symbol = symbols ++ rest) :
    ∃ ts', ts'.map Token.symbol = rest ∧
      items endLine blocks ts = (signatures ++ ·) <$> items endLine blocks ts' := by
  induction hd generalizing blocks ts rest with
  | nil => exact ⟨ts, h, by simp⟩
  | @block defines define body after inner outer _ _ ihbody ihrest =>
    obtain ⟨t, ts, rfl, ht, hif⟩ := List.map_eq_cons_iff.mp h
    obtain ⟨name, hname, rfl, hdefine⟩ := expectWord_of_symbols endLine .defineName hif
    obtain ⟨brace, hbrace, _, hopen⟩ := expect_of_symbols endLine .openBrace hdefine rfl
    let opened : Block := ⟨t.span.extend name.value.span, name.value.name⟩
    have hopened :
        ((opened :: blocks).map Block.define).reverse = defines ++ [name.value.name] := by
      rw [List.map_cons, List.reverse_cons, hb]
    have hbody : brace.rest.map Token.symbol = body ++ .braceClose :: (after ++ rest) := by
      simpa using hopen
    obtain ⟨closing, hclosing, hinner⟩ := ihbody hopened hbody
    obtain ⟨t', ts', rfl, ht', hclosed⟩ := List.map_eq_cons_iff.mp hclosing
    obtain ⟨final, hfinal, houter⟩ := ihrest hb hclosed
    refine ⟨final, hfinal, ?_⟩
    calc items endLine blocks (t :: ts)
        = items endLine (opened :: blocks) brace.rest := by
          rw [items_keywordIf ht, hname]
          change (do let brace ← expect endLine .openBrace name.rest; _) = _
          rw [hbrace]
          rfl
      _ = (inner ++ ·) <$> items endLine blocks ts' := by rw [hinner, items_braceClose ht']
      _ = (inner ++ outer ++ ·) <$> items endLine blocks final := by
          rw [houter]
          cases items endLine blocks final <;> simp
  | @declaration defines s after signature signatures hd _ ih =>
    subst hb
    rw [List.append_assoc] at h
    obtain ⟨ts', hts', hfirst⟩ := items_of_declaration endLine hd h
    obtain ⟨final, hfinal, hitems⟩ := ih rfl hts'
    refine ⟨final, hfinal, ?_⟩
    rw [hfirst, hitems]
    cases items endLine blocks final <;> simp

/-- The reader accepts exactly the tables that derive, and reads what they derive. -/
theorem items_eq_ok_iff {ts : List Token} {signatures : List Signature} :
    items endLine [] ts = .ok signatures ↔ Derives [] (ts.map Token.symbol) signatures := by
  constructor
  · intro h
    cases derives_of_items h with
    | outside hd => exact hd
  · intro hd
    have houtside : (([] : List Block).map Block.define).reverse = [] := rfl
    have hall : ts.map Token.symbol = ts.map Token.symbol ++ [] := (List.append_nil _).symm
    obtain ⟨ts', hts', h⟩ := items_of_derives endLine hd houtside hall
    rw [List.map_eq_nil_iff] at hts'
    rw [h, hts', items]
    simp [pure, Except.pure]

theorem tokens_eq_ok_iff {source : String} {ts : List Token} :
    tokens source = .ok ts ↔ readings source = ts.map .ok :=
  mapM_eq_ok_iff_map

/-- A text without unrecognized lexemes is a table exactly if its symbols derive from the grammar,
and it is read as the signatures that the derivation lists. -/
theorem parse_eq_ok_iff_derives (source : String) (ts : List Token)
    (recognized : readings source = ts.map .ok) :
    (∀ signatures, parse source = .ok signatures ↔
      Derives [] (ts.map Token.symbol) signatures) ∧
    ((¬ ∃ signatures, Derives [] (ts.map Token.symbol) signatures) →
      ∃ error, parse source = .error error) := by
  have hparse : parse source = items (lastLine source) [] ts := by
    rw [parse, tokens_eq_ok_iff.mpr recognized]
    rfl
  rw [hparse]
  refine ⟨fun signatures => items_eq_ok_iff, ?_⟩
  intro hnone
  cases hread : items (lastLine source) [] ts with
  | error error => exact ⟨error, rfl⟩
  | ok signatures => exact absurd ⟨signatures, items_eq_ok_iff.mp hread⟩ hnone

theorem parse_variadic_in_block :
    readings "if A\x7b\nvoid f(int,...);\x7d" = List.map .ok
      [⟨⟨⟨1, 1⟩, ⟨1, 2⟩⟩, .keywordIf⟩, ⟨.single ⟨1, 4⟩, .identifier "A"⟩,
        ⟨.single ⟨1, 5⟩, .braceOpen⟩, ⟨⟨⟨2, 1⟩, ⟨2, 4⟩⟩, .identifier "void"⟩,
        ⟨.single ⟨2, 6⟩, .identifier "f"⟩, ⟨.single ⟨2, 7⟩, .parenOpen⟩,
        ⟨⟨⟨2, 8⟩, ⟨2, 10⟩⟩, .identifier "int"⟩, ⟨.single ⟨2, 11⟩, .comma⟩,
        ⟨⟨⟨2, 12⟩, ⟨2, 14⟩⟩, .ellipsis⟩, ⟨.single ⟨2, 15⟩, .parenClose⟩,
        ⟨.single ⟨2, 16⟩, .semicolon⟩, ⟨.single ⟨2, 17⟩, .braceClose⟩] ∧
    parse "if A\x7b\nvoid f(int,...);\x7d" =
      .ok [⟨"f", .void, false, [.value .int, .variadic], ["A"]⟩] := by
  refine (fun recognized => ⟨recognized,
    ((parse_eq_ok_iff_derives _ _ recognized).1 _).mpr ?_⟩) (by with_unfolding_all rfl)
  have hint : DerivesArgument (identifiers ["int"]) (.value .int) := .value (by decide) rfl
  have hargs : DerivesArguments _ _ := .some (.more hint (.last .variadic))
  have hvoid : " ".intercalate ["void"] = Result.void.name := rfl
  have hf : DerivesDeclaration ["A"] _ _ := @DerivesDeclaration.intro ["A"] false ["void"] "f"
    .void _ _ (by decide) hvoid hargs
  exact @Derives.block [] "A" _ [] _ [] (@Derives.declaration ["A"] _ [] _ [] hf .nil) .nil

end CapFixture.Table
