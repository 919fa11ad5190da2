import CapFixture.Proofs.Table.Spacing
import CapFixture.Proofs.Table.Writing

/-!
# Tables made of tables

The symbols of two tables on lines of their own are the symbols of the one and then those of the
other, whatever the first one ends with. So tables can be put together, and a block can be put
around them.

## Main definitions

- `Signature.within` — the signature inside one more block
-/

namespace CapFixture

/-- The signature inside one more block, which is outside all others. -/
def Signature.within (define : String) (s : Signature) : Signature :=
  { s with defines := define :: s.defines }

namespace Table

/-! ### Symbols of a text -/

theorem Lexeme.read_eq_ok_iff {l : Lexeme} {t : Token} :
    l.read = .ok t ↔ symbolOf? l.text = some t.symbol ∧ l.span = t.span := by
  unfold read
  cases symbolOf? l.text with
  | none => simp
  | some symbol =>
    constructor
    · intro h
      cases h
      exact ⟨rfl, rfl⟩
    · rintro ⟨h, hspan⟩
      cases h
      rw [hspan]

theorem exists_tokens_iff {ls : List Lexeme} {symbols : List Symbol} :
    (∃ ts : List Token, ls.map Lexeme.read = ts.map .ok ∧ ts.map Token.symbol = symbols) ↔
      ls.map (Lexeme.symbolOf? ·.text) = symbols.map some := by
  induction ls generalizing symbols with
  | nil =>
    constructor
    · rintro ⟨ts, hread, rfl⟩
      rw [List.map_nil, eq_comm, List.map_eq_nil_iff] at hread
      rw [hread]
      rfl
    · intro h
      rw [List.map_nil, eq_comm, List.map_eq_nil_iff] at h
      exact ⟨[], rfl, h.symm⟩
  | cons l ls ih =>
    constructor
    · rintro ⟨ts, hread, rfl⟩
      rw [List.map_cons, eq_comm, List.map_eq_cons_iff] at hread
      obtain ⟨t, ts, rfl, ht, hts⟩ := hread
      rw [List.map_cons, (Lexeme.read_eq_ok_iff.mp ht.symm).1, ih.mp ⟨ts, hts.symm, rfl⟩]
      rfl
    · intro h
      rw [List.map_cons, eq_comm, List.map_eq_cons_iff] at h
      obtain ⟨symbol, symbols, rfl, hsymbol, hrest⟩ := h
      obtain ⟨ts, hread, hts⟩ := ih.mpr hrest.symm
      have hl : l.read = .ok ⟨l.span, symbol⟩ := Lexeme.read_eq_ok_iff.mpr ⟨hsymbol.symm, rfl⟩
      exact ⟨⟨l.span, symbol⟩ :: ts, by rw [List.map_cons, hl, hread]; rfl, by rw [← hts]; rfl⟩

theorem map_text_lexemes (p : Position) (cs : List Char) :
    (lexemes (Glyph.locate p cs)).map Lexeme.text = texts cs :=
  (spaced_iff.mpr rfl).map_text_lexemes p

/-- What a text spells can be seen from its lexemes. -/
theorem spells_iff {cs : List Char} {symbols : List Symbol} :
    Spells cs symbols ↔ (texts cs).map Lexeme.symbolOf? = symbols.map some := by
  have hlexemes : ∀ p, (texts cs).map Lexeme.symbolOf? =
      (lexemes (Glyph.locate p cs)).map (Lexeme.symbolOf? ·.text) := by
    intro p
    rw [← map_text_lexemes p cs, List.map_map]
    rfl
  constructor
  · intro h
    rw [hlexemes .start]
    exact exists_tokens_iff.mp (h .start)
  · intro h p
    rw [hlexemes p] at h
    exact exists_tokens_iff.mpr h

theorem Spells.join {cs ds : List Char} {front back : List Symbol} (h : Spells cs front)
    (hback : Spells ds back) : Spells (cs ++ '\n' :: ds) (front ++ back) := by
  have htexts : texts (cs ++ '\n' :: ds) = texts cs ++ texts ds :=
    spaced_iff.mp ((spaced_iff.mpr rfl).join (spaced_iff.mpr rfl))
  rw [spells_iff] at h hback ⊢
  rw [htexts, List.map_append, h, hback, List.map_append]

/-- A table is read by its symbols, and only by them. -/
theorem exists_spells_of_parse {source : String} {ss : List Signature}
    (h : parse source = .ok ss) :
    ∃ symbols, Spells source.toList symbols ∧ Derives [] symbols ss := by
  obtain ⟨ts, htokens, hitems⟩ := bind_eq_ok_iff.mp h
  refine ⟨ts.map Token.symbol, ?_, items_eq_ok_iff.mp hitems⟩
  rw [spells_iff, ← map_text_lexemes .start, List.map_map]
  exact exists_tokens_iff.mp ⟨ts, tokens_eq_ok_iff.mp htokens, rfl⟩

/-! ### Blocks around tables -/

theorem DerivesDeclaration.within (define : String) {defines : List String}
    {symbols : List Symbol} {s : Signature} (h : DerivesDeclaration defines symbols s) :
    DerivesDeclaration (define :: defines) symbols (s.within define) := by
  cases h with
  | intro nonempty spelled args_derive => exact .intro nonempty spelled args_derive

theorem Derives.within (define : String) {defines : List String} {symbols : List Symbol}
    {ss : List Signature} (h : Derives defines symbols ss) :
    Derives (define :: defines) symbols (ss.map (Signature.within define)) := by
  induction h with
  | nil => exact .nil
  | block _ _ ihbody ihrest =>
    rw [List.map_append]
    exact .block ihbody ihrest
  | declaration first_derives _ ih => exact .declaration (first_derives.within define) ih

/-- Two tables make one table if each stands on lines of its own: it declares what the one
declares, and then what the other does. A table inside a block declares the same inside one more
block. -/
theorem parse_composes {a : String} {ss : List Signature} (ha : parse a = .ok ss) :
    (∀ (b : String) (others : List Signature), parse b = .ok others →
      parse (a ++ "\n" ++ b) = .ok (ss ++ others)) ∧
    ∀ define : String, IsIdentifier define →
      parse ("if " ++ define ++ " \x7b\n" ++ a ++ "\n\x7d") =
        .ok (ss.map (Signature.within define)) := by
  obtain ⟨symbols, hspells, hd⟩ := exists_spells_of_parse ha
  constructor
  · intro b others hb
    obtain ⟨back, hback, hdback⟩ := exists_spells_of_parse hb
    refine parse_of_spells ?_ (hd.append hdback)
    simpa using hspells.join hback
  · intro define hdefine
    have hclosed : Spells ['\x7d'] [.braceClose] :=
      spells_nil.punctuation '\x7d' .braceClose (by decide)
    have hinside := ((hspells.join hclosed).blank '\n' (by decide)).punctuation '\x7b' .braceOpen
      (by decide)
    have hopened := (hinside.blank ' ' (by decide)).identifier hdefine (nameEnds_cons (by decide))
    have hif := (hopened.blank ' ' (by decide)).keywordIf (nameEnds_cons (by decide))
    have hblock : Derives [] _ (ss.map (Signature.within define) ++ []) :=
      .block (hd.within define) .nil
    rw [List.append_nil] at hblock
    refine parse_of_spells ?_ hblock
    simpa using hif

/-- The first table ends in a comment, and the block is called like a type. -/
theorem parse_composes_after_comment :
    parse ("void f(); # and" ++ "\n" ++ "int g(...);") =
      .ok [⟨"f", .void, false, [], []⟩, ⟨"g", .value .int, false, [.variadic], []⟩] ∧
    parse ("if " ++ "int" ++ " \x7b\n" ++ "void f(); # and" ++ "\n\x7d") =
      .ok [⟨"f", .void, false, [], ["int"]⟩] := by
  have ha : parse "void f(); # and" = .ok [⟨"f", .void, false, [], []⟩] := by
    with_unfolding_all rfl
  have hb : parse "int g(...);" = .ok [⟨"g", .value .int, false, [.variadic], []⟩] := by
    with_unfolding_all rfl
  exact ⟨(parse_composes ha).1 _ _ hb, (parse_composes ha).2 "int" (by decide)⟩

end Table

end CapFixture
