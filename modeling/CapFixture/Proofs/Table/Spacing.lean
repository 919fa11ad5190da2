import CapFixture.Proofs.Table.Names

/-!
# Lexemes and the gaps between them

A text is its lexemes with gaps between them, and the gaps keep those lexemes apart that would
otherwise run into one another. Wherever some lexemes stand in a text in this way, they are the
ones that are found in it.

## Main definitions

- `IsLexeme` — a name, a run of dots, or another single character
- `RunsInto` — the lexemes that make one when nothing stands between them
- `Spaced` — a text as lexemes with gaps between them
- `texts` — the lexemes of a text
-/

namespace CapFixture.Table

/-- Whether a lexeme that starts with `c` goes on with `d`: names go on with letters, digits and
underscores, and runs of dots with dots. -/
def GoesOn (c d : Char) : Prop := NameStart c ∧ NamePart d ∨ c = '.' ∧ d = '.'

/-- A character outside of gaps, and a run of others that it goes on with. -/
inductive IsLexeme : List Char → Prop where
  | run {c : Char} {cs : List Char} (not_blank : Text.isBlank c = false) (not_comment : c ≠ '#')
      (goes_on : ∀ d ∈ cs, GoesOn c d) : IsLexeme (c :: cs)

/-- A name and a text that starts with a letter, a digit or an underscore, or two runs of dots. -/
def RunsInto (text next : List Char) : Prop := ∃ c ∈ text.head?, ∃ d ∈ next.head?, GoesOn c d

/-- The text behind a lexeme, if there is one before it, consists of the other lexemes with gaps
between them. Lexemes that run into one another are kept apart. -/
inductive Spaced : Option (List Char) → List (List Char) → List Char → Prop where
  | last {before : Option (List Char)} {gap : List Char} (gap_at_end : FinalGap gap) :
      Spaced before [] gap
  | lexeme {before : Option (List Char)} {gap text rest : List Char} {texts : List (List Char)}
      (gap_before : Gap gap) (apart : ∀ last ∈ before, RunsInto last text → gap ≠ [])
      (is_lexeme : IsLexeme text) (others : Spaced (some text) texts rest) :
      Spaced before (text :: texts) (gap ++ (text ++ rest))

/-- The lexemes of a text, wherever it stands. -/
def texts (cs : List Char) : List (List Char) :=
  (lexemes (Glyph.locate .start cs)).map Lexeme.text

/-! ### Characters -/

theorem continues_iff (c d : Char) : continues c d = true ↔ GoesOn c d := by
  unfold GoesOn
  by_cases hc : isNameStart c = true
  · have hdot : c ≠ '.' := by
      rintro rfl
      revert hc
      decide
    rw [continues, if_pos hc, isNameChar_iff, ← isNameStart_iff]
    simp [hc, hdot]
  · rw [continues, if_neg hc, ← isNameStart_iff]
    simp [hc]

theorem continues_eq_false_iff {c d : Char} : continues c d = false ↔ ¬ GoesOn c d := by
  rw [← continues_iff, Bool.not_eq_true]

/-- No lexeme goes on with the first character of a gap. -/
theorem not_goesOn_of_gap {c d : Char} (h : Text.isBlank d = true ∨ d = '#') : ¬ GoesOn c d := by
  rintro (⟨_, hpart⟩ | ⟨_, rfl⟩)
  · rcases h with h | rfl
    · rw [hpart.isBlank_eq_false] at h
      cases h
    · exact hpart.ne_of_lt (by decide) rfl
  · revert h
    decide

/-! ### Gaps -/

theorem Gap.head {gap : List Char} (h : Gap gap) :
    ∀ d ∈ gap.head?, Text.isBlank d = true ∨ d = '#' := by
  intro d hd
  cases h with
  | nil => cases hd
  | blank hblank => exact .inl (Option.some.inj hd ▸ hblank)
  | comment => exact .inr (Option.some.inj hd).symm

theorem FinalGap.head {gap : List Char} (h : FinalGap gap) :
    ∀ d ∈ gap.head?, Text.isBlank d = true ∨ d = '#' := by
  cases h with
  | closed hgap => exact hgap.head
  | @comment cs text hgap _ =>
    cases cs with
    | nil => exact fun d hd => .inr (Option.some.inj hd).symm
    | cons c cs => exact fun d hd => hgap.head d hd

/-- A gap at the end of a text is one between lexemes once a newline follows it. -/
theorem FinalGap.newline {gap : List Char} (h : FinalGap gap) : Gap (gap ++ ['\n']) := by
  cases h with
  | closed hgap => exact hgap.append (.blank (by decide) .nil)
  | comment hgap hline =>
    rw [List.append_assoc]
    exact hgap.append (.comment hline .nil)

theorem skipGap_line (p : Position) {text : List Char} (h : '\n' ∉ text) (rest : List Char) :
    skipGap true (Glyph.locate p (text ++ rest)) =
      skipGap true (Glyph.locate (p.past text) rest) := by
  induction text generalizing p with
  | nil => rfl
  | cons c text ih =>
    rw [List.mem_cons, not_or] at h
    have hgoes : (c != '\n') = true := by simpa using Ne.symm h.1
    rw [List.cons_append, Glyph.locate, skipGap, if_pos rfl, hgoes, ih _ h.2, Position.past_cons]

theorem skipGap_gap (p : Position) {gap : List Char} (h : Gap gap) (rest : List Char) :
    skipGap false (Glyph.locate p (gap ++ rest)) =
      skipGap false (Glyph.locate (p.past gap) rest) := by
  induction h generalizing p with
  | nil => rfl
  | @blank c cs hblank _ ih =>
    have hne : c ≠ '#' := by
      rintro rfl
      revert hblank
      decide
    rw [List.cons_append, Glyph.locate, skipGap, if_neg (by decide), if_neg hne, if_pos hblank, ih,
      Position.past_cons]
  | @comment text cs hline _ ih =>
    have hstep : skipGap false (Glyph.locate p ('#' :: (text ++ '\n' :: cs) ++ rest)) =
        skipGap true (Glyph.locate (p.after '#') (text ++ '\n' :: (cs ++ rest))) := by
      rw [List.cons_append, List.append_assoc]
      rfl
    have hend : ∀ p : Position, skipGap true (Glyph.locate p ('\n' :: (cs ++ rest))) =
        skipGap false (Glyph.locate (p.after '\n') (cs ++ rest)) := fun _ => rfl
    rw [hstep, skipGap_line _ hline, hend, ih, Position.past_cons, Position.past_append,
      Position.past_cons]

theorem skipGap_final (p : Position) {gap : List Char} (h : FinalGap gap) :
    skipGap false (Glyph.locate p gap) = [] := by
  cases h with
  | closed hgap =>
    have hskip := skipGap_gap p hgap []
    rw [List.append_nil] at hskip
    rw [hskip]
    rfl
  | @comment cs text hgap hline =>
    have hline' := skipGap_line ((p.past cs).after '#') hline []
    rw [List.append_nil] at hline'
    rw [skipGap_gap p hgap]
    exact hline'

/-! ### Spaced lexemes -/

theorem Spaced.goesOn {text rest : List Char} {others : List (List Char)}
    (h : Spaced (some text) others rest) :
    ∀ c ∈ text.head?, ∀ d ∈ rest.head?, ¬ GoesOn c d := by
  intro c hc d hd
  cases h with
  | last hgap => exact not_goesOn_of_gap (hgap.head d hd)
  | @lexeme _ gap next rest others hgap hapart hnext _ =>
    cases gap with
    | cons e gap => exact not_goesOn_of_gap (hgap.head d hd)
    | nil =>
      cases hnext with
      | run => exact fun hgoes => hapart text rfl ⟨c, hc, d, hd, hgoes⟩ rfl

/-- A larger gap in front keeps the first lexeme apart from anything. -/
theorem Spaced.gap_append {before : Option (List Char)} {others : List (List Char)}
    {gap cs : List Char} (h : Spaced none others cs) (hgap : Gap gap) (hne : gap ≠ []) :
    Spaced before others (gap ++ cs) := by
  cases h with
  | last hfinal => exact .last (hgap.append_final hfinal)
  | @lexeme _ inner text rest others hinner _ htext hrest =>
    rw [← List.append_assoc]
    refine .lexeme (hgap.append hinner) ?_ htext hrest
    intro _ _ _ hnil
    exact hne (List.append_eq_nil_iff.mp hnil).1

/-- Two texts on lines of their own, whatever the first one ends with. -/
theorem Spaced.join {before : Option (List Char)} {front back : List (List Char)}
    {cs ds : List Char} (h : Spaced before front cs) (hback : Spaced none back ds) :
    Spaced before (front ++ back) (cs ++ '\n' :: ds) := by
  induction h with
  | @last before gap hfinal =>
    have hjoined : Spaced before back (gap ++ ['\n'] ++ ds) :=
      hback.gap_append hfinal.newline (by simp)
    rw [List.append_assoc] at hjoined
    exact hjoined
  | lexeme hgap hapart htext _ ih =>
    rw [List.append_assoc, List.append_assoc]
    exact .lexeme hgap hapart htext ih

/-- The lexemes that a text is made of are the ones that are found in it. -/
theorem Spaced.map_text_lexemes {before : Option (List Char)} {others : List (List Char)}
    {cs : List Char} (h : Spaced before others cs) (p : Position) :
    (lexemes (Glyph.locate p cs)).map Lexeme.text = others := by
  induction h generalizing p with
  | last hfinal =>
    rw [lexemes_of_skipGap_nil (skipGap_final p hfinal)]
    rfl
  | @lexeme _ gap text rest others hgap _ htext hrest ih =>
    rw [lexemes_congr (skipGap_gap p hgap _)]
    -- the lexeme runs to its last character, and what keeps it apart from the next one stops it
    cases htext with
    | @run c run hblank hcomment hgoes =>
      have hrun : ∀ d ∈ run, continues c d = true := by
        intro d hd
        exact (continues_iff c d).mpr (hgoes d hd)
      have hends : ∀ d ∈ rest.head?, continues c d = false := by
        intro d hd
        exact continues_eq_false_iff.mpr (hrest.goesOn c rfl d hd)
      rw [lexemes_locate_run _ hblank hcomment hrun hends, List.map_cons, Lexeme.text_locate, ih]

/-- Every text is its lexemes with gaps between them, behind any lexeme that has ended there. -/
theorem spaced_map_text_lexemes (p : Position) (before : Option (List Char)) (cs : List Char)
    (hends : ∀ last ∈ before, ∀ c ∈ last.head?, ∀ d ∈ cs.head?, ¬ GoesOn c d) :
    Spaced before ((lexemes (Glyph.locate p cs)).map Lexeme.text) cs := by
  -- on the length, as a gap and a lexeme take many characters at once
  induction hn : cs.length using Nat.strongRecOn generalizing p before cs with
  | ind n ih =>
    subst hn
    rcases skipGap_locate p cs with
      ⟨hfinal, hskip⟩ | ⟨gap, c, rest, rfl, hgap, hblank, hcomment, hskip⟩
    · rw [lexemes_of_skipGap_nil hskip]
      exact .last hfinal
    · have hhead := continues_head_dropWhile c rest
      rw [lexemes_of_skipGap_cons hskip, Glyph.takeWhile_locate, Glyph.dropWhile_locate,
        List.map_cons, Lexeme.text_locate]
      generalize hrun : rest.takeWhile (continues c) = run
      generalize hafter : rest.dropWhile (continues c) = after at hhead ⊢
      have hrest : rest = run ++ after := by
        rw [← hrun, ← hafter, List.takeWhile_append_dropWhile]
      have hlexeme : IsLexeme (c :: run) := by
        refine .run hblank hcomment fun d hd => (continues_iff c d).mp ?_
        exact List.mem_takeWhile_imp (hrun ▸ hd)
      have hapart : ∀ last ∈ before, RunsInto last (c :: run) → gap ≠ [] := by
        rintro last hlast ⟨d, hd, e, he, hgoes⟩ rfl
        obtain rfl := Option.some.inj he
        exact hends last hlast d hd c rfl hgoes
      have hends' : ∀ last ∈ some (c :: run), ∀ d ∈ last.head?, ∀ e ∈ after.head?,
          ¬ GoesOn d e := by
        intro last hlast d hd e he
        obtain rfl := Option.some.inj hlast
        obtain rfl := Option.some.inj hd
        exact continues_eq_false_iff.mp (hhead e he)
      have hshort : after.length < (gap ++ c :: rest).length := by
        simp only [hrest, List.length_append, List.length_cons]
        omega
      have hothers :=
        ih _ hshort (((p.past gap).after c).past run) (some (c :: run)) after hends' rfl
      rw [hrest]
      exact .lexeme hgap hapart hlexeme hothers

/-- A text is made of some lexemes exactly if these are the lexemes that are found in it. -/
theorem spaced_iff {others : List (List Char)} {cs : List Char} :
    Spaced none others cs ↔ texts cs = others := by
  constructor
  · intro h
    exact h.map_text_lexemes .start
  · rintro rfl
    exact spaced_map_text_lexemes .start none cs (by simp)

end CapFixture.Table
