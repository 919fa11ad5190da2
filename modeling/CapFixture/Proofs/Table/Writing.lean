import CapFixture.Proofs.Table.Names

/-!
# Writing tables

Signatures that can be declared are written one after the other, each inside blocks of its own, and
the text is read as the same signatures.

## Main definitions

- `Table.Spells` — what symbols a text consists of
- `Table.write` — the text of some signatures
-/

namespace CapFixture

namespace Table

/-! ### Symbols of a text -/

/-- Wherever the text stands, its lexemes are tokens with these symbols. -/
def Spells (cs : List Char) (symbols : List Symbol) : Prop :=
  ∀ p, ∃ ts : List Token,
    (lexemes (Glyph.locate p cs)).map Lexeme.read = ts.map .ok ∧ ts.map Token.symbol = symbols

section
variable {c : Char} {cs run rest : List Char} {symbol : Symbol} {symbols : List Symbol}
  {name : String}

theorem spells_nil : Spells [] [] := fun _ =>
  ⟨[], by rw [Glyph.locate, lexemes_of_skipGap_nil rfl]; rfl, rfl⟩

theorem Spells.blank (h : Spells cs symbols) (c : Char) (hc : Text.isBlank c = true) :
    Spells (c :: cs) symbols := by
  intro p
  obtain ⟨ts, hread, hsymbols⟩ := h (p.after c)
  have hne : c ≠ '#' := by
    rintro rfl
    revert hc
    decide
  have hskip : skipGap false (Glyph.locate p (c :: cs)) =
      skipGap false (Glyph.locate (p.after c) cs) := by
    simp [Glyph.locate, skipGap, hne, hc]
  exact ⟨ts, by rw [lexemes_congr hskip, hread], hsymbols⟩

/-- A lexeme in front of a text, if it ends there. -/
theorem Spells.lexeme (h : Spells rest symbols) (hblank : Text.isBlank c = false)
    (hcomment : c ≠ '#') (hrun : ∀ d ∈ run, continues c d = true)
    (hends : ∀ d ∈ rest.head?, continues c d = false)
    (hsymbol : Lexeme.symbolOf? (c :: run) = some symbol) :
    Spells (c :: run ++ rest) (symbol :: symbols) := by
  intro p
  obtain ⟨ts, hread, hsymbols⟩ := h (p.past (c :: run))
  rw [lexemes_locate_run p hblank hcomment hrun hends]
  refine ⟨⟨Lexeme.span ⟨⟨c, p⟩, Glyph.locate (p.after c) run⟩, symbol⟩ :: ts, ?_, ?_⟩
  · rw [List.map_cons, List.map_cons, hread, Lexeme.read, Lexeme.text_locate, hsymbol]
  · rw [List.map_cons, hsymbols]

theorem Spells.punctuation (h : Spells rest symbols) (c : Char) (symbol : Symbol)
    (hlisted : (c, symbol) ∈ Table.punctuation) : Spells (c :: rest) (symbol :: symbols) := by
  have hfacts : Text.isBlank c = false ∧ c ≠ '#' ∧ ∀ d, continues c d = false := by
    simp only [Table.punctuation, List.mem_cons, Prod.mk.injEq, List.not_mem_nil,
      or_false] at hlisted
    rcases hlisted with ⟨rfl, _⟩ | ⟨rfl, _⟩ | ⟨rfl, _⟩ | ⟨rfl, _⟩ | ⟨rfl, _⟩ | ⟨rfl, _⟩
    all_goals exact ⟨by decide, by decide, fun _ => rfl⟩
  obtain ⟨hblank, hcomment, hends⟩ := hfacts
  exact h.lexeme hblank hcomment (List.forall_mem_nil _) (fun d _ => hends d)
    (symbolOf?_punctuation hlisted)

/-- A maximal run of name characters in front of a text. -/
theorem Spells.word (h : Spells rest symbols) (hstart : ∃ c ∈ cs.head?, NameStart c)
    (hparts : ∀ c ∈ cs, NamePart c) (hends : NameEnds rest)
    (hsymbol : Lexeme.symbolOf? cs = some symbol) : Spells (cs ++ rest) (symbol :: symbols) := by
  obtain ⟨c, hc, hstart⟩ := hstart
  obtain ⟨run, rfl⟩ := List.head?_eq_some_iff.mp hc
  have hpart : NamePart c := .inl hstart
  have hcontinues : ∀ d, continues c d = isNameChar d := fun d =>
    if_pos ((isNameStart_iff c).mpr hstart)
  refine h.lexeme hpart.isBlank_eq_false (hpart.ne_of_lt (by decide)) ?_ ?_ hsymbol
  · intro d hd
    rw [hcontinues, isNameChar_iff]
    exact hparts d (List.mem_cons_of_mem _ hd)
  · intro d hd
    rw [hcontinues, ← Bool.not_eq_true, isNameChar_iff]
    exact hends d hd

theorem Spells.identifier (h : Spells rest symbols) (hname : IsIdentifier name)
    (hends : NameEnds rest) : Spells (name.toList ++ rest) (.identifier name :: symbols) := by
  refine h.word hname.start hname.parts hends ?_
  obtain ⟨c, hc, hstart⟩ := hname.start
  obtain ⟨cs, hcs⟩ := List.head?_eq_some_iff.mp hc
  have hne : ∀ keyword : String, name ≠ keyword → c :: cs ≠ keyword.toList := fun _ hne h =>
    hne (String.toList_injective (hcs.trans h))
  rw [hcs, symbolOf?_name cs ((isNameStart_iff c).mpr hstart) (hne "if" hname.ne_if)
    (hne "throws" hname.ne_throws), ← hcs, String.ofList_toList]

theorem Spells.keywordIf (h : Spells rest symbols) (hends : NameEnds rest) :
    Spells ("if".toList ++ rest) (.keywordIf :: symbols) :=
  h.word ⟨'i', rfl, .inl (by decide)⟩ (forall_namePart (by decide)) hends rfl

theorem Spells.keywordThrows (h : Spells rest symbols) (hends : NameEnds rest) :
    Spells ("throws".toList ++ rest) (.keywordThrows :: symbols) :=
  h.word ⟨'t', rfl, .inl (by decide)⟩ (forall_namePart (by decide)) hends rfl

theorem Spells.ellipsis (h : Spells rest symbols) (hends : rest.head? ≠ some '.') :
    Spells ("...".toList ++ rest) (.ellipsis :: symbols) := by
  have hrun : ['.', '.'].all (continues '.') = true := by decide
  refine @Spells.lexeme '.' ['.', '.'] _ _ _ h (by decide) (by decide) (List.all_eq_true.mp hrun) ?_
    rfl
  intro d hd
  have hne : d ≠ '.' := by
    rintro rfl
    exact hends hd
  simp [continues, isNameStart, hne]

theorem nameEnds_cons (hc : ¬ NamePart c) : NameEnds (c :: cs) := by
  rintro d hd
  obtain rfl := Option.some.inj hd
  exact hc

/-- Identifiers with single spaces between them. -/
theorem Spells.identifiers {names : List String} (h : Spells rest symbols)
    (hnames : ∀ name ∈ names, IsIdentifier name) (hends : NameEnds rest) :
    Spells ((" ".intercalate names).toList ++ rest) (Table.identifiers names ++ symbols) := by
  rw [String.toList_intercalate]
  induction names with
  | nil => exact h
  | cons name names ih =>
    have hname := hnames name (List.mem_cons_self ..)
    have hrest := ih fun name h => hnames name (List.mem_cons_of_mem _ h)
    cases names with
    | nil => simpa [Table.identifiers] using h.identifier hname hends
    | cons next names =>
      have hblank := (hrest.blank ' ' (by decide)).identifier hname
        (nameEnds_cons (by decide))
      simpa [List.intercalate_cons_cons, Table.identifiers] using hblank

end

/-- One table after another. -/
theorem Derives.append {defines : List String} {front back : List Symbol}
    {first others : List Signature} (h : Derives defines front first)
    (hback : Derives defines back others) : Derives defines (front ++ back) (first ++ others) := by
  induction h with
  | nil => exact hback
  | block body_derives _ _ ih => simpa using Derives.block body_derives (ih hback)
  | declaration first_derives _ ih =>
    rw [List.append_assoc]
    exact .declaration first_derives (ih hback)

/-- A table is read by its symbols. -/
theorem parse_of_spells {source : String} {symbols : List Symbol} {ss : List Signature}
    (h : Spells source.toList symbols) (hd : Derives [] symbols ss) : parse source = .ok ss := by
  obtain ⟨ts, hread, rfl⟩ := h .start
  exact bind_eq_ok_iff.mpr ⟨ts, tokens_eq_ok_iff.mpr hread, items_eq_ok_iff.mpr hd⟩

/-! ### Writing -/

/-- The text of a declaration. -/
def declarationText (s : Signature) : String :=
  (if s.throws then "throws " else "") ++ s.result.name ++ " " ++ s.name ++ "(" ++
    ", ".intercalate (s.arguments.map Argument.name) ++ ");"

/-- A text inside a block for each define, outermost first. -/
def inBlocks (text : String) (defines : List String) : String :=
  defines.foldr (fun define inner => "if " ++ define ++ " \x7b " ++ inner ++ " \x7d") text

/-- Each signature on a line, inside blocks of its own. -/
def write (ss : List Signature) : String :=
  String.join (ss.map fun s => inBlocks (declarationText s) s.defines ++ "\n")

section
variable {rest : List Char} {symbols : List Symbol}

theorem exists_spells_argument (arg : Argument) (h : Spells rest symbols) (hends : NameEnds rest)
    (hdots : rest.head? ≠ some '.') : ∃ inside, DerivesArgument inside arg ∧
      Spells (arg.name.toList ++ rest) (inside ++ symbols) := by
  cases arg with
  | value type =>
    refine ⟨_, .value type.words_ne_nil type.intercalate_words, ?_⟩
    have htype := h.identifiers type.isIdentifier_words hends
    rw [type.intercalate_words] at htype
    exact htype
  | variadic => exact ⟨_, .variadic, h.ellipsis hdots⟩

theorem exists_spells_separated {args : List Argument} (hne : args ≠ [])
    (hvariadic : .variadic ∉ args.dropLast) (h : Spells rest symbols) (hends : NameEnds rest)
    (hdots : rest.head? ≠ some '.') : ∃ inside, DerivesSeparated inside args ∧
      Spells ((", ".intercalate (args.map Argument.name)).toList ++ rest) (inside ++ symbols) := by
  rw [String.toList_intercalate]
  induction args with
  | nil => exact absurd rfl hne
  | cons arg args ih =>
    cases args with
    | nil =>
      obtain ⟨inside, harg, hspells⟩ := exists_spells_argument arg h hends hdots
      exact ⟨inside, .last harg, by simpa using hspells⟩
    | cons next args =>
      rw [List.dropLast_cons_cons, List.mem_cons, not_or] at hvariadic
      obtain ⟨type, rfl⟩ : ∃ type, arg = .value type := by
        cases arg with
        | value type => exact ⟨type, rfl⟩
        | variadic => exact absurd rfl hvariadic.1
      obtain ⟨others, hothers, hspells⟩ := ih (by simp) hvariadic.2
      obtain ⟨inside, harg, hspells⟩ := exists_spells_argument (.value type)
        ((hspells.blank ' ' (by decide)).punctuation ',' .comma
          (by decide)) (nameEnds_cons (by decide)) (by simp)
      refine ⟨inside ++ .comma :: others, .more harg hothers, ?_⟩
      simpa [List.intercalate_cons_cons] using hspells

theorem exists_spells_arguments {args : List Argument} (hvariadic : .variadic ∉ args.dropLast)
    (h : Spells rest symbols) (hends : NameEnds rest) (hdots : rest.head? ≠ some '.') :
    ∃ inside, DerivesArguments inside args ∧
      Spells ((", ".intercalate (args.map Argument.name)).toList ++ rest) (inside ++ symbols) := by
  by_cases hne : args = []
  · subst hne
    exact ⟨[], .none, h⟩
  · obtain ⟨inside, hseparated, hspells⟩ := exists_spells_separated hne hvariadic h hends hdots
    exact ⟨inside, .some hseparated, hspells⟩

theorem exists_spells_declaration {s : Signature} (hs : s.Declarable) (h : Spells rest symbols) :
    ∃ own, DerivesDeclaration s.defines own s ∧
      Spells ((declarationText s).toList ++ rest) (own ++ symbols) := by
  obtain ⟨name, result, throws, args, defines⟩ := s
  have hclosed : Spells (");".toList ++ rest) (.parenClose :: .semicolon :: symbols) :=
    (h.punctuation ';' .semicolon (by decide)).punctuation ')' .parenClose (by decide)
  obtain ⟨inside, hargs, hspells⟩ := exists_spells_arguments hs.variadic hclosed
    (nameEnds_cons (by decide)) (by simp)
  have hname := (hspells.punctuation '(' .parenOpen (by decide)).identifier
    hs.name (nameEnds_cons (by decide))
  have hresult := (hname.blank ' ' (by decide)).identifiers result.isIdentifier_words
    (nameEnds_cons (by decide))
  rw [result.intercalate_words] at hresult
  have hd : DerivesDeclaration defines _ ⟨name, result, throws, args, defines⟩ :=
    .intro result.words_ne_nil result.intercalate_words hargs
  refine ⟨_, hd, ?_⟩
  unfold declarationText
  cases throws with
  | false => simpa [throwsMark, identifiers] using hresult
  | true =>
    have hthrows := (hresult.blank ' ' (by decide)).keywordThrows
      (nameEnds_cons (by decide))
    simpa [throwsMark, identifiers] using hthrows

/-- Blocks around a declaration, of which the outer ones are already there. -/
theorem exists_spells_inBlocks {s : Signature} (hs : s.Declarable) (outer : List String)
    {defines : List String}
    (hdefines : s.defines = outer ++ defines) (h : Spells rest symbols) :
    ∃ own, Derives outer own [s] ∧
      Spells ((inBlocks (declarationText s) defines).toList ++ rest) (own ++ symbols) := by
  induction defines generalizing outer rest symbols with
  | nil =>
    obtain ⟨own, hd, hspells⟩ := exists_spells_declaration hs h
    rw [hdefines, List.append_nil] at hd
    exact ⟨own ++ [], .declaration hd .nil, by simpa [inBlocks] using hspells⟩
  | cons define defines ih =>
    have hclosed : Spells (" \x7d".toList ++ rest) (.braceClose :: symbols) :=
      (h.punctuation '\x7d' .braceClose (by decide)).blank ' ' (by decide)
    obtain ⟨own, hd, hspells⟩ := ih (outer ++ [define]) (by simp [hdefines]) hclosed
    have hdefine : IsIdentifier define := hs.defines define (by simp [hdefines])
    have hopened := (((hspells.blank ' ' (by decide)).punctuation '\x7b'
      .braceOpen (by decide)).blank ' ' (by decide)).identifier hdefine
      (nameEnds_cons (by decide))
    have hif := (hopened.blank ' ' (by decide)).keywordIf (nameEnds_cons (by decide))
    refine ⟨_, .block hd .nil, ?_⟩
    simpa [inBlocks] using hif

/-- Signatures that can be declared are what the symbols of their text derive. -/
theorem exists_spells_write {ss : List Signature} (hss : ∀ s ∈ ss, s.Declarable) :
    ∃ symbols, Derives [] symbols ss ∧ Spells (write ss).toList symbols := by
  induction ss with
  | nil => exact ⟨[], .nil, spells_nil⟩
  | cons s ss ih =>
    rw [List.forall_mem_cons] at hss
    obtain ⟨symbols, hd, hspells⟩ := ih hss.2
    obtain ⟨own, hown, hspells⟩ := exists_spells_inBlocks hss.1 [] rfl
      (hspells.blank '\n' (by decide))
    exact ⟨own ++ symbols, hown.append hd, by simpa [write] using hspells⟩

end

/-- Signatures whose names are identifiers and that are variadic only at their end are read back
from their text, whatever their names are spelled like. -/
theorem parse_write {ss : List Signature} (hss : ∀ s ∈ ss, s.Declarable) :
    parse (write ss) = .ok ss := by
  obtain ⟨symbols, hd, hspells⟩ := exists_spells_write hss
  exact parse_of_spells hspells hd

/-- Functions and defines with the names of types. -/
theorem parse_write_type_names :
    (∀ s ∈ [(⟨"long", .value .unsignedLong, true, [.value .unsignedShort, .variadic],
        ["void", "unsigned"]⟩ : Signature), ⟨"void", .void, false, [], []⟩], s.Declarable) ∧
      parse ("if void \x7b if unsigned \x7b throws unsigned long long(unsigned short, ...);" ++
        " \x7d \x7d\nvoid void();\n") =
        .ok [⟨"long", .value .unsignedLong, true, [.value .unsignedShort, .variadic],
          ["void", "unsigned"]⟩, ⟨"void", .void, false, [], []⟩] := by
  have hss : ∀ s ∈ [(⟨"long", .value .unsignedLong, true, [.value .unsignedShort, .variadic],
      ["void", "unsigned"]⟩ : Signature), ⟨"void", .void, false, [], []⟩], s.Declarable :=
    List.forall_mem_cons.mpr ⟨⟨by decide, by decide, by decide⟩,
      List.forall_mem_singleton.mpr ⟨by decide, by decide, by decide⟩⟩
  have htext : write [⟨"long", .value .unsignedLong, true, [.value .unsignedShort, .variadic],
      ["void", "unsigned"]⟩, ⟨"void", .void, false, [], []⟩] =
      "if void \x7b if unsigned \x7b throws unsigned long long(unsigned short, ...);" ++
        " \x7d \x7d\nvoid void();\n" := by
    have hargs : ", ".intercalate ["unsigned short", "..."] = "unsigned short, ..." := by decide
    simp [write, inBlocks, declarationText, Result.name, ValueType.name, Argument.name,
      String.join, hargs]
  exact ⟨hss, htext ▸ parse_write hss⟩

end Table

end CapFixture
