import CapFixture.Proofs.Source
import CapFixture.Proofs.Text.Run
import CapFixture.Table.Lexer

/-!
# The lexemes partition the text

A text is gaps and lexemes in turn, and each lexeme is one reading, whether it is a token or not.

## Main definitions

- `Gap`, `FinalGap` — white space and comments between lexemes, and at the end
- `Reading` — what a lexeme is, by its characters and by the text around it
- `Partition` — a text as gaps and lexemes with their readings
-/

namespace CapFixture.Table

/-! ### Gaps -/

/-- White space, and comments up to their newlines. -/
inductive Gap : List Char → Prop where
  | nil : Gap []
  | blank {c : Char} {cs : List Char} (blank : Text.isBlank c = true) (rest : Gap cs) :
      Gap (c :: cs)
  | comment {text cs : List Char} (one_line : '\n' ∉ text) (rest : Gap cs) :
      Gap ('#' :: (text ++ '\n' :: cs))

/-- A gap at the end of a text, where a comment needs no newline. -/
inductive FinalGap : List Char → Prop where
  | closed {cs : List Char} (gap : Gap cs) : FinalGap cs
  | comment {cs text : List Char} (gap : Gap cs) (one_line : '\n' ∉ text) :
      FinalGap (cs ++ '#' :: text)

theorem Gap.append {cs ds : List Char} (h : Gap cs) (hd : Gap ds) : Gap (cs ++ ds) := by
  induction h with
  | nil => exact hd
  | blank hc _ ih => exact .blank hc ih
  | comment ht _ ih =>
    rw [List.cons_append, List.append_assoc]
    exact .comment ht ih

theorem Gap.append_final {cs ds : List Char} (h : Gap cs) (hd : FinalGap ds) :
    FinalGap (cs ++ ds) := by
  cases hd with
  | closed hd => exact .closed (h.append hd)
  | comment hd ht =>
    rw [← List.append_assoc]
    exact .comment (h.append hd) ht

/-- A comment is dropped together with its newline, or up to the end of the text. -/
theorem skipGap_comment (p : Position) (cs : List Char) :
    ('\n' ∉ cs ∧ skipGap true (Glyph.locate p cs) = []) ∨
    ∃ text rest, cs = text ++ '\n' :: rest ∧ '\n' ∉ text ∧
      skipGap true (Glyph.locate p cs) =
        skipGap false (Glyph.locate (p.past (text ++ ['\n'])) rest) := by
  induction cs generalizing p with
  | nil => exact .inl ⟨by simp, rfl⟩
  | cons c cs ih =>
    by_cases hc : c = '\n'
    · subst hc
      exact .inr ⟨[], cs, rfl, by simp, rfl⟩
    · have hstep : skipGap true (Glyph.locate p (c :: cs)) =
          skipGap true (Glyph.locate (p.after c) cs) := by
        rw [Glyph.locate, skipGap, if_pos rfl, show (c != '\n') = true by simpa using hc]
      rw [hstep]
      rcases ih (p.after c) with ⟨hnone, hskip⟩ | ⟨text, rest, rfl, ht, hskip⟩
      · exact .inl ⟨by simp [hnone, Ne.symm hc], hskip⟩
      · exact .inr ⟨c :: text, rest, rfl, by simp [ht, Ne.symm hc], hskip⟩

/-- What is dropped is a gap, and it ends only at a lexeme or at the end of the text. -/
theorem skipGap_locate (p : Position) (cs : List Char) :
    (FinalGap cs ∧ skipGap false (Glyph.locate p cs) = []) ∨
    ∃ gap c rest, cs = gap ++ c :: rest ∧ Gap gap ∧ Text.isBlank c = false ∧ c ≠ '#' ∧
      skipGap false (Glyph.locate p cs) = Glyph.locate (p.past gap) (c :: rest) := by
  -- on the length, as a comment takes many characters at once
  induction hn : cs.length using Nat.strongRecOn generalizing p cs with
  | ind n ih =>
    subst hn
    cases cs with
    | nil => exact .inl ⟨.closed .nil, rfl⟩
    | cons c cs =>
      by_cases hcomment : c = '#'
      · subst hcomment
        rcases skipGap_comment (p.after '#') cs with ⟨hnone, hskip⟩ | ⟨text, rest, rfl, ht, hskip⟩
        · exact .inl ⟨.comment .nil hnone, hskip⟩
        · have hgap : Gap ('#' :: (text ++ ['\n'])) := .comment ht .nil
          have hshort : rest.length < ('#' :: (text ++ '\n' :: rest)).length := by
            simp only [List.length_cons, List.length_append]
            omega
          have hstep : skipGap false (Glyph.locate p ('#' :: (text ++ '\n' :: rest))) =
              skipGap false (Glyph.locate (p.past ('#' :: (text ++ ['\n']))) rest) := hskip
          rw [hstep]
          rcases ih _ hshort (p.past ('#' :: (text ++ ['\n']))) rest rfl with
            ⟨hfinal, hrest⟩ | ⟨gap, d, after, rfl, hg, hd, hd', hrest⟩
          · exact .inl ⟨by simpa using hgap.append_final hfinal, hrest⟩
          · refine .inr ⟨'#' :: (text ++ '\n' :: gap), d, after, by simp, .comment ht hg, hd, hd',
              ?_⟩
            rw [hrest, ← Position.past_append]
            simp
      · by_cases hblank : Text.isBlank c = true
        · have hstep : skipGap false (Glyph.locate p (c :: cs)) =
              skipGap false (Glyph.locate (p.after c) cs) := by
            simp [Glyph.locate, skipGap, hcomment, hblank]
          rw [hstep]
          rcases ih cs.length (by simp) (p.after c) cs rfl with
            ⟨hfinal, hrest⟩ | ⟨gap, d, after, rfl, hg, hd, hd', hrest⟩
          · exact .inl ⟨(Gap.blank hblank .nil).append_final hfinal, hrest⟩
          · exact .inr ⟨c :: gap, d, after, rfl, .blank hblank hg, hd, hd', hrest⟩
        · refine .inr ⟨[], c, cs, rfl, .nil, by simpa using hblank, hcomment, ?_⟩
          simp [Glyph.locate, skipGap, hcomment, hblank]

/-! ### Readings -/

/-- A letter or an underscore. -/
def NameStart (c : Char) : Prop := 'a' ≤ c ∧ c ≤ 'z' ∨ 'A' ≤ c ∧ c ≤ 'Z' ∨ c = '_'

/-- A letter, a digit or an underscore. -/
def NamePart (c : Char) : Prop := NameStart c ∨ '0' ≤ c ∧ c ≤ '9'

/-- Whether a name cannot go on with the text. -/
def NameEnds (rest : List Char) : Prop := ∀ c ∈ rest.head?, ¬ NamePart c

/-- The tokens of one character. -/
def punctuation : List (Char × Symbol) :=
  [ ('(', .parenOpen), (')', .parenClose), ('\x7b', .braceOpen), ('\x7d', .braceClose),
    (',', .comma), (';', .semicolon) ]

/-- The place of a lexeme behind the text `before`. -/
def spanBehind (before lexeme : List Char) : Span :=
  ⟨.behind before, .behind (before ++ lexeme.dropLast)⟩

/-- What a lexeme between the texts `before` and `rest` is: a maximal name, a maximal run of dots,
or another single character. -/
inductive Reading (before rest : List Char) : List Char → Except TableError Token → Prop where
  | keywordIf (ends : NameEnds rest) :
      Reading before rest ['i', 'f'] (.ok ⟨spanBehind before ['i', 'f'], .keywordIf⟩)
  | keywordThrows (ends : NameEnds rest) :
      Reading before rest ['t', 'h', 'r', 'o', 'w', 's']
        (.ok ⟨spanBehind before ['t', 'h', 'r', 'o', 'w', 's'], .keywordThrows⟩)
  | identifier {c : Char} {cs : List Char} (start : NameStart c) (parts : ∀ d ∈ cs, NamePart d)
      (ends : NameEnds rest) (not_if : c :: cs ≠ ['i', 'f'])
      (not_throws : c :: cs ≠ ['t', 'h', 'r', 'o', 'w', 's']) :
      Reading before rest (c :: cs)
        (.ok ⟨spanBehind before (c :: cs), .identifier (.ofList (c :: cs))⟩)
  | ellipsis (ends : rest.head? ≠ some '.') :
      Reading before rest ['.', '.', '.'] (.ok ⟨spanBehind before ['.', '.', '.'], .ellipsis⟩)
  | dots {n : Nat} (positive : 0 < n) (not_three : n ≠ 3) (ends : rest.head? ≠ some '.') :
      Reading before rest (List.replicate n '.') (.error (.unrecognized (.behind before) '.'))
  | punctuation {c : Char} {symbol : Symbol} (listed : (c, symbol) ∈ punctuation) :
      Reading before rest [c] (.ok ⟨spanBehind before [c], symbol⟩)
  | unrecognized {c : Char} (not_start : ¬ NameStart c) (not_dot : c ≠ '.')
      (not_blank : Text.isBlank c = false) (not_comment : c ≠ '#')
      (unlisted : c ∉ punctuation.map Prod.fst) :
      Reading before rest [c] (.error (.unrecognized (.behind before) c))

theorem isNameStart_iff (c : Char) : isNameStart c = true ↔ NameStart c := by
  have hupper : c.isUpper = true ↔ 'A' ≤ c ∧ c ≤ 'Z' := decide_eq_true_iff
  have hlower : c.isLower = true ↔ 'a' ≤ c ∧ c ≤ 'z' := by
    show (decide ('a' ≤ c) && decide (c ≤ 'z')) = true ↔ _
    rw [Bool.and_eq_true, decide_eq_true_iff, decide_eq_true_iff]
  have halpha : c.isAlpha = (c.isUpper || c.isLower) := rfl
  rw [isNameStart, halpha, Bool.or_eq_true, Bool.or_eq_true, hupper, hlower, beq_iff_eq]
  unfold NameStart
  tauto

theorem isNameChar_iff (c : Char) : isNameChar c = true ↔ NamePart c := by
  simp only [isNameChar, Char.isAlphanum, Char.isDigit, NamePart, ← isNameStart_iff, isNameStart,
    Char.le_def, Bool.or_eq_true, Bool.and_eq_true, decide_eq_true_eq, beq_iff_eq]
  tauto

/-- A name is an identifier, unless it is one of the two keywords. -/
theorem symbolOf?_name {c : Char} (cs : List Char) (hc : isNameStart c = true)
    (hif : c :: cs ≠ ['i', 'f']) (hthrows : c :: cs ≠ ['t', 'h', 'r', 'o', 'w', 's']) :
    Lexeme.symbolOf? (c :: cs) = some (.identifier (.ofList (c :: cs))) := by
  generalize htext : c :: cs = text at hif hthrows
  unfold Lexeme.symbolOf?
  split
  case h_8 => exact absurd rfl hif
  case h_9 => exact absurd rfl hthrows
  case h_10 =>
    cases htext
    rw [if_pos hc]
  case h_11 => cases htext
  -- the other texts start with no letter
  all_goals
    cases htext
    exact absurd hc (by decide)

theorem symbolOf?_dots (n : Nat) :
    Lexeme.symbolOf? (List.replicate (n + 1) '.') = if n = 2 then some .ellipsis else none := by
  match n with
  | 0 => rfl
  | 1 => rfl
  | 2 => rfl
  | n + 3 => rfl

theorem symbolOf?_punctuation {c : Char} {symbol : Symbol} (h : (c, symbol) ∈ punctuation) :
    Lexeme.symbolOf? [c] = some symbol := by
  simp only [punctuation, List.mem_cons, Prod.mk.injEq, List.not_mem_nil, or_false] at h
  rcases h with ⟨rfl, rfl⟩ | ⟨rfl, rfl⟩ | ⟨rfl, rfl⟩ | ⟨rfl, rfl⟩ | ⟨rfl, rfl⟩ | ⟨rfl, rfl⟩
  all_goals rfl

theorem symbolOf?_other {c : Char} (hc : isNameStart c = false)
    (h : c ∉ punctuation.map Prod.fst) : Lexeme.symbolOf? [c] = none := by
  generalize htext : [c] = text
  unfold Lexeme.symbolOf?
  split
  case h_10 =>
    cases htext
    rw [if_neg (by simp [hc])]
  case h_11 => cases htext
  all_goals cases htext
  all_goals exact absurd (by decide) h

/-! ### Lexemes -/

theorem Lexeme.text_locate (p q : Position) (c : Char) (cs : List Char) :
    (Lexeme.mk ⟨c, p⟩ (Glyph.locate q cs)).text = c :: cs := by
  rw [Lexeme.text, Glyph.map_char_locate]

section
variable (before : List Char) (c : Char) (cs : List Char)

/-- The lexeme with these characters behind the text `before`. -/
def lexemeBehind : Lexeme :=
  ⟨⟨c, .behind before⟩, Glyph.locate ((Position.behind before).after c) cs⟩

theorem text_lexemeBehind : (lexemeBehind before c cs).text = c :: cs :=
  Lexeme.text_locate ..

theorem span_lexemeBehind : (lexemeBehind before c cs).span = spanBehind before (c :: cs) := by
  unfold Lexeme.span spanBehind lexemeBehind
  rw [Glyph.position_getLast_locate, Position.behind_append]

theorem read_lexemeBehind {symbol : Symbol} (h : Lexeme.symbolOf? (c :: cs) = some symbol) :
    (lexemeBehind before c cs).read = .ok ⟨spanBehind before (c :: cs), symbol⟩ := by
  rw [Lexeme.read, text_lexemeBehind, h, span_lexemeBehind]

theorem read_lexemeBehind_none (h : Lexeme.symbolOf? (c :: cs) = none) :
    (lexemeBehind before c cs).read = .error (.unrecognized (.behind before) c) := by
  rw [Lexeme.read, text_lexemeBehind, h]
  rfl

end

/-- The run of a lexeme ends where it does not go on. -/
theorem continues_head_dropWhile (first : Char) (cs : List Char) :
    ∀ c ∈ (cs.dropWhile (continues first)).head?, continues first c = false := by
  intro c hc
  have h := List.head?_dropWhile_not (continues first) cs
  rw [Option.mem_def.mp hc] at h
  exact h

theorem reading_name (before : List Char) {c : Char} (cs : List Char)
    (hstart : isNameStart c = true) :
    Reading before (cs.dropWhile (continues c)) (c :: cs.takeWhile (continues c))
      (lexemeBehind before c (cs.takeWhile (continues c))).read := by
  have hcontinues : ∀ d, continues c d = true ↔ NamePart d := by
    intro d
    rw [continues, if_pos hstart, isNameChar_iff]
  have hparts : ∀ d ∈ cs.takeWhile (continues c), NamePart d := by
    intro d hd
    exact (hcontinues d).mp (List.mem_takeWhile_imp hd)
  have hends : NameEnds (cs.dropWhile (continues c)) := by
    intro d hd hpart
    have hstop := continues_head_dropWhile c cs d hd
    rw [(hcontinues d).mpr hpart] at hstop
    cases hstop
  generalize cs.takeWhile (continues c) = run at hparts ⊢
  by_cases hif : c :: run = ['i', 'f']
  · rw [read_lexemeBehind before c run (show _ = some .keywordIf by rw [hif]; rfl), hif]
    exact .keywordIf hends
  · by_cases hthrows : c :: run = ['t', 'h', 'r', 'o', 'w', 's']
    · rw [read_lexemeBehind before c run (show _ = some .keywordThrows by rw [hthrows]; rfl),
        hthrows]
      exact .keywordThrows hends
    · rw [read_lexemeBehind before c run (symbolOf?_name run hstart hif hthrows)]
      exact .identifier ((isNameStart_iff c).mp hstart) hparts hends hif hthrows

theorem reading_dots (before cs : List Char) :
    Reading before (cs.dropWhile (continues '.')) ('.' :: cs.takeWhile (continues '.'))
      (lexemeBehind before '.' (cs.takeWhile (continues '.'))).read := by
  have hcontinues : ∀ d, continues '.' d = true ↔ d = '.' := by
    intro d
    simp [continues, isNameStart]
  have hends : (cs.dropWhile (continues '.')).head? ≠ some '.' := by
    intro hdot
    have hstop := continues_head_dropWhile '.' cs '.' hdot
    cases hstop
  obtain ⟨n, hn⟩ : ∃ n, cs.takeWhile (continues '.') = List.replicate n '.' :=
    ⟨_, List.eq_replicate_of_mem fun d hd => (hcontinues d).mp (List.mem_takeWhile_imp hd)⟩
  rw [hn, ← List.replicate_succ]
  have hsymbol := symbolOf?_dots n
  rw [List.replicate_succ] at hsymbol
  by_cases hthree : n = 2
  · subst hthree
    rw [read_lexemeBehind before _ _ hsymbol]
    exact .ellipsis hends
  · rw [if_neg hthree] at hsymbol
    rw [read_lexemeBehind_none before _ _ hsymbol]
    exact .dots (Nat.succ_pos n) (by omega) hends

/-- The characters that a lexeme takes are read as what the lexeme is. -/
theorem reading_lexemeBehind (before : List Char) {c : Char} (cs : List Char)
    (hblank : Text.isBlank c = false) (hcomment : c ≠ '#') :
    Reading before (cs.dropWhile (continues c)) (c :: cs.takeWhile (continues c))
      (lexemeBehind before c (cs.takeWhile (continues c))).read := by
  by_cases hstart : isNameStart c = true
  · exact reading_name before cs hstart
  · by_cases hdot : c = '.'
    · subst hdot
      exact reading_dots before cs
    · -- no other character goes on
      have hnone : cs.takeWhile (continues c) = [] := by
        cases cs with
        | nil => rfl
        | cons d cs => simp [continues, hstart, hdot]
      rw [hnone]
      have hother : isNameStart c = false := by simpa using hstart
      by_cases hlisted : c ∈ punctuation.map Prod.fst
      · obtain ⟨⟨_, symbol⟩, hmem, rfl⟩ := List.mem_map.mp hlisted
        rw [read_lexemeBehind before _ _ (symbolOf?_punctuation hmem)]
        exact .punctuation hmem
      · rw [read_lexemeBehind_none before _ _ (symbolOf?_other hother hlisted)]
        refine .unrecognized ?_ hdot hblank hcomment hlisted
        rw [← isNameStart_iff]
        exact hstart

/-! ### Texts -/

/-- The text behind `before` as gaps and lexemes, and the readings of the lexemes. -/
inductive Partition : List Char → List Char → List (Except TableError Token) → Prop where
  | nil {before last : List Char} (gap : FinalGap last) : Partition before last []
  | cons {before gap lexeme rest : List Char} {reading : Except TableError Token}
      {readings : List (Except TableError Token)} (gap_before : Gap gap)
      (reads : Reading (before ++ gap) rest lexeme reading)
      (others : Partition (before ++ gap ++ lexeme) rest readings) :
      Partition before (gap ++ (lexeme ++ rest)) (reading :: readings)

theorem lexemes_of_skipGap_nil {gs : List Glyph} (h : skipGap false gs = []) :
    lexemes gs = [] := by
  rw [lexemes]
  split
  · rfl
  · next h' => rw [h] at h'; cases h'

theorem lexemes_of_skipGap_cons {gs rest : List Glyph} {g : Glyph}
    (h : skipGap false gs = g :: rest) :
    lexemes gs = ⟨g, rest.takeWhile (continues g.char ·.char)⟩ ::
      lexemes (rest.dropWhile (continues g.char ·.char)) := by
  rw [lexemes]
  split
  · next h' => rw [h] at h'; cases h'
  · next h' =>
    rw [h] at h'
    cases h'
    rfl

/-- Lexemes do not depend on the gap in front of them. -/
theorem lexemes_congr {gs gs' : List Glyph} (h : skipGap false gs = skipGap false gs') :
    lexemes gs = lexemes gs' := by
  cases hgap : skipGap false gs' with
  | nil => rw [lexemes_of_skipGap_nil hgap, lexemes_of_skipGap_nil (h.trans hgap)]
  | cons g rest => rw [lexemes_of_skipGap_cons hgap, lexemes_of_skipGap_cons (h.trans hgap)]

/-- A lexeme in front of a text, if it ends there. -/
theorem lexemes_locate_run (p : Position) {c : Char} {run rest : List Char}
    (hblank : Text.isBlank c = false) (hcomment : c ≠ '#')
    (hrun : ∀ d ∈ run, continues c d = true) (hends : ∀ d ∈ rest.head?, continues c d = false) :
    lexemes (Glyph.locate p (c :: run ++ rest)) =
      ⟨⟨c, p⟩, Glyph.locate (p.after c) run⟩ ::
        lexemes (Glyph.locate (p.past (c :: run)) rest) := by
  have hskip : skipGap false (Glyph.locate p (c :: run ++ rest)) =
      ⟨c, p⟩ :: Glyph.locate (p.after c) (run ++ rest) := by
    simp [Glyph.locate, skipGap, hcomment, hblank]
  rw [lexemes_of_skipGap_cons hskip, Glyph.takeWhile_locate, Glyph.dropWhile_locate,
    Text.takeWhile_run hrun hends, Text.dropWhile_run hrun hends, ← Position.past_cons]

theorem partition_lexemes (before cs : List Char) :
    Partition before cs ((lexemes (Glyph.locate (.behind before) cs)).map Lexeme.read) := by
  induction hn : cs.length using Nat.strongRecOn generalizing before cs with
  | ind n ih =>
    subst hn
    rcases skipGap_locate (.behind before) cs with
      ⟨hfinal, hskip⟩ | ⟨gap, c, rest, rfl, hgap, hblank, hcomment, hskip⟩
    · rw [lexemes_of_skipGap_nil hskip]
      exact .nil hfinal
    · rw [← Position.behind_append, Glyph.locate] at hskip
      rw [lexemes_of_skipGap_cons hskip, Glyph.takeWhile_locate, Glyph.dropWhile_locate,
        ← Position.past_cons, ← Position.behind_append, List.map_cons]
      generalize hrun : rest.takeWhile (continues c) = run
      generalize hafter : rest.dropWhile (continues c) = after
      have hrest : rest = run ++ after := by
        rw [← hrun, ← hafter, List.takeWhile_append_dropWhile]
      have hreads := reading_lexemeBehind (before ++ gap) rest hblank hcomment
      rw [hrun, hafter] at hreads
      have hshort : after.length < (gap ++ c :: rest).length := by
        simp only [hrest, List.length_append, List.length_cons]
        omega
      have hothers := ih _ hshort (before ++ gap ++ c :: run) after rfl
      rw [hrest]
      exact .cons hgap hreads hothers

/-- A lexeme with the gap in front of it. -/
structure Piece where
  gap : List Char
  lexeme : List Char
  reading : Except TableError Token

def Piece.text (p : Piece) : List Char := p.gap ++ p.lexeme

theorem Partition.pieces {before cs : List Char} {readings : List (Except TableError Token)}
    (h : Partition before cs readings) :
    ∃ pieces last, cs = pieces.flatMap Piece.text ++ last ∧ FinalGap last ∧
      readings = pieces.map Piece.reading ∧
      ∀ front piece back, pieces = front ++ piece :: back →
        Gap piece.gap ∧ Reading (before ++ front.flatMap Piece.text ++ piece.gap)
          (back.flatMap Piece.text ++ last) piece.lexeme piece.reading := by
  induction h with
  | @nil before last hgap =>
    refine ⟨[], last, rfl, hgap, rfl, ?_⟩
    intro front piece back h
    cases front <;> cases h
  | @cons before gap lexeme rest reading readings hgap hreads _ ih =>
    obtain ⟨pieces, last, rfl, hfinal, rfl, hpieces⟩ := ih
    refine ⟨⟨gap, lexeme, reading⟩ :: pieces, last, ?_, hfinal, rfl, ?_⟩
    · simp [Piece.text]
    · intro front piece back h
      cases front with
      | nil =>
        cases h
        simpa using ⟨hgap, hreads⟩
      | cons first front =>
        cases h
        have hpiece := hpieces front piece back rfl
        simpa [Piece.text] using hpiece

/-- Every text is gaps and lexemes in turn, and the lexemes are its readings in order. -/
theorem readings_partition (source : String) :
    ∃ pieces last, source.toList = pieces.flatMap Piece.text ++ last ∧ FinalGap last ∧
      readings source = pieces.map Piece.reading ∧
      ∀ front piece back, pieces = front ++ piece :: back →
        Gap piece.gap ∧ Reading (front.flatMap Piece.text ++ piece.gap)
          (back.flatMap Piece.text ++ last) piece.lexeme piece.reading :=
  (partition_lexemes [] source.toList).pieces

end CapFixture.Table
