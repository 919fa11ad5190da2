import CapFixture.Proofs.Table.Guarded
import Mathlib.Data.String.Basic

/-!
# Tokens read on guard

The reader on guard takes the same tokens off a text as the lexemes of the text are, and it has no
lapse. Its cursor is always behind a part of the text, at the position and the byte where it ends.

## Main definitions

- `Guarded.Mirrors` — the reader on guard gives what the other reader gives
- `Guarded.Cursor.In` — the cursor is a place of the text
-/

namespace CapFixture.Table.Guarded

/-! ### Rounds -/

variable {σ α β γ : Type} {left : σ → Nat} {round : σ → Except Stop (Round σ α)} {s t : σ}

theorem rounds_eq : rounds left round s = (do
    match ← round s with
    | .last a => return a
    | .next t => if left t < left s then rounds left round t else throw (.lapse .standstill)) :=
  rounds.eq_def left round s

theorem rounds_of_last {a : α} (h : round s = .ok (.last a)) : rounds left round s = .ok a := by
  rw [rounds_eq, h]
  rfl

theorem rounds_of_next (h : round s = .ok (.next t)) (hless : left t < left s) :
    rounds left round s = rounds left round t := by
  rw [rounds_eq, h]
  exact if_pos hless

theorem rounds_of_error {stop : Stop} (h : round s = .error stop) :
    rounds left round s = .error stop := by
  rw [rounds_eq, h]
  rfl

/-- The reader on guard has no lapse. It rejects what the other one rejects, with the same error,
and otherwise their results are related. -/
inductive Mirrors (R : α → β → Prop) : Except TableError α → Except Stop β → Prop where
  | ok {a : α} {b : β} (related : R a b) : Mirrors R (.ok a) (.ok b)
  | rejected (e : TableError) : Mirrors R (.error e) (.error (.rejected e))

section
variable {δ : Type} {R : α → β → Prop} {S : γ → δ → Prop} {x : Except TableError α}
  {y : Except Stop β} {f : α → Except TableError γ} {g : β → Except Stop δ}

/-- Readers that go on from related results. -/
theorem Mirrors.bind (h : Mirrors R x y)
    (hnext : ∀ a b, x = .ok a → R a b → Mirrors S (f a) (g b)) : Mirrors S (x >>= f) (y >>= g) := by
  cases h with
  | ok related => exact hnext _ _ rfl related
  | rejected e => exact .rejected e

/-- Only the other reader goes on. -/
theorem Mirrors.bind_left {S : γ → β → Prop} (h : Mirrors R x y)
    (hnext : ∀ a b, R a b → ∃ c, f a = .ok c ∧ S c b) : Mirrors S (x >>= f) y := by
  cases h with
  | ok related =>
    obtain ⟨c, hc, hrelated⟩ := hnext _ _ related
    change Mirrors S (f _) _
    rw [hc]
    exact .ok hrelated
  | rejected e => exact .rejected e

/-- Only the reader on guard goes on. -/
theorem Mirrors.bind_right {S : α → δ → Prop} (h : Mirrors R x y)
    (hnext : ∀ a b, R a b → ∃ d, g b = .ok d ∧ S a d) : Mirrors S x (y >>= g) := by
  cases h with
  | ok related =>
    obtain ⟨d, hd, hrelated⟩ := hnext _ _ related
    change Mirrors S _ (g _)
    rw [hd]
    exact .ok hrelated
  | rejected e => exact .rejected e

end

/-! ### Slices -/

theorem isValid_utf8Len {source : String} {before rest : List Char}
    (h : source.toList = before ++ rest) :
    String.Pos.Raw.IsValid source ⟨String.utf8Len before⟩ := by
  rw [String.Pos.Raw.isValid_iff_exists_append]
  refine ⟨.ofList before, .ofList rest, ?_, (String.rawEndPos_ofList before).symm⟩
  rw [← String.ofList_append, ← h, String.ofList_toList]

/-- What stands between two places of a text. -/
theorem slice_eq {source : String} {before text rest : List Char}
    (h : source.toList = before ++ text ++ rest) :
    slice source (String.utf8Len before) (String.utf8Len before + String.utf8Len text) =
      .ok (.ofList text) := by
  have hstart : String.Pos.Raw.IsValid source ⟨String.utf8Len before⟩ := by
    rw [List.append_assoc] at h
    exact isValid_utf8Len h
  have hstop := isValid_utf8Len h
  rw [String.utf8Len_append] at hstop
  have hextract := String.extract_of_valid before text rest
  rw [← h, String.ofList_toList] at hextract
  rw [slice, if_pos ⟨Nat.le_add_right _ _, hstart, hstop⟩, hextract]
  rfl

/-! ### Cursors -/

namespace Cursor

variable (s : Cursor)

/-- The characters that follow, with their positions. -/
def glyphs : List Glyph := Glyph.locate s.position s.rest

/-- The place behind some more characters. -/
def past (run rest : List Char) : Cursor :=
  ⟨rest, s.position.past run, s.offset + String.utf8Len run⟩

/-- The place is one of the text. -/
def In (source : String) : Prop :=
  ∃ before, source.toList = before ++ s.rest ∧ s.offset = String.utf8Len before

theorem in_start (source : String) : (start source).In source := ⟨[], rfl, rfl⟩

variable {s}

theorem In.past {source : String} (h : s.In source) {run rest : List Char}
    (hrest : s.rest = run ++ rest) : (s.past run rest).In source := by
  obtain ⟨before, htext, hoffset⟩ := h
  refine ⟨before ++ run, by rw [htext, hrest, List.append_assoc]; rfl, ?_⟩
  rw [String.utf8Len_append, ← hoffset]
  rfl

theorem In.slice {source : String} (h : s.In source) {run rest : List Char}
    (hrest : s.rest = run ++ rest) :
    slice source s.offset (s.past run rest).offset = .ok (.ofList run) := by
  obtain ⟨before, htext, hoffset⟩ := h
  rw [hrest, ← List.append_assoc] at htext
  have hslice := slice_eq htext
  rw [← hoffset] at hslice
  exact hslice

theorem advance?_nil (h : s.rest = []) : s.advance? = none := by
  rw [advance?, h]

theorem advance?_cons {c : Char} {rest : List Char} (h : s.rest = c :: rest) :
    s.advance? = some (c, s.past [c] rest) := by
  rw [advance?, h, past, String.utf8Len_cons]
  simp

theorem past_nil : s.past [] s.rest = s := rfl

theorem past_past (run rest run' rest' : List Char) :
    (s.past run rest).past run' rest' = s.past (run ++ run') rest' := by
  simp only [past, Position.past_append, String.utf8Len_append, Nat.add_assoc]

end Cursor

/-! ### Runs and gaps -/

/-- Where the last of the characters stands, or `last` if there are none. -/
def lastPosition (last p : Position) (cs : List Char) : Position :=
  ((Glyph.locate p cs).getLast?.map Glyph.position).getD last

theorem lastPosition_cons (last p : Position) (c : Char) (cs : List Char) :
    lastPosition last p (c :: cs) = lastPosition p (p.after c) cs := by
  rw [lastPosition, Glyph.locate, List.getLast?_cons, lastPosition]
  exact (Option.getD_map Glyph.position ⟨c, p⟩ _).symm

theorem readWhile_eq (p : Char → Bool) (last : Position) (s : Cursor) :
    readWhile p last s = .ok (lastPosition last s.position (s.rest.takeWhile p),
      s.past (s.rest.takeWhile p) (s.rest.dropWhile p)) := by
  -- character by character, each of which is the last one so far
  generalize hcs : s.rest = cs
  induction cs generalizing s last with
  | nil =>
    have hround : runRound p (last, s) = .ok (.last (last, s)) := by
      rw [runRound, s.advance?_nil hcs]
      rfl
    have hpast : s.past [] [] = s := hcs ▸ s.past_nil
    rw [readWhile, rounds_of_last hround, List.takeWhile_nil, List.dropWhile_nil, hpast]
    rfl
  | cons c cs ih =>
    have hadvance := s.advance?_cons hcs
    by_cases hc : p c = true
    · have hround : runRound p (last, s) = .ok (.next (s.position, s.past [c] cs)) := by
        rw [runRound, hadvance]
        exact if_pos hc
      have hless : (s.past [c] cs).rest.length < s.rest.length := by
        rw [hcs]
        exact Nat.lt_succ_self _
      have hothers := ih s.position (s.past [c] cs) rfl
      rw [readWhile] at hothers ⊢
      rw [rounds_of_next hround hless, hothers, List.takeWhile_cons_of_pos hc,
        List.dropWhile_cons_of_pos hc, lastPosition_cons, Cursor.past_past]
      rfl
    · have hround : runRound p (last, s) = .ok (.last (last, s)) := by
        rw [runRound, hadvance]
        exact if_neg hc
      have hpast : s.past [] (c :: cs) = s := hcs ▸ s.past_nil
      rw [readWhile, rounds_of_last hround, List.takeWhile_cons_of_neg hc,
        List.dropWhile_cons_of_neg hc, hpast]
      rfl

/-- The newline that ends a comment is white space, and so the comment can be dropped without it. -/
theorem skipGap_true (gs : List Glyph) :
    Table.skipGap true gs = Table.skipGap false (gs.dropWhile (·.char != '\n')) := by
  induction gs with
  | nil => rfl
  | cons g gs ih =>
    by_cases hg : g.char = '\n'
    · have hdrop : (g :: gs).dropWhile (·.char != '\n') = g :: gs :=
        List.dropWhile_cons_of_neg (by simp [hg])
      have hblank : Text.isBlank '\n' = true := by decide
      rw [hdrop, Table.skipGap, Table.skipGap]
      simp [hg, hblank]
    · have hdrop : (g :: gs).dropWhile (·.char != '\n') = gs.dropWhile (·.char != '\n') :=
        List.dropWhile_cons_of_pos (by simp [hg])
      rw [hdrop, ← ih, Table.skipGap, if_pos rfl, show (g.char != '\n') = true by simpa using hg]

/-- The cursor goes behind the gap that stands in front of the next lexeme. -/
def Cursor.Skips (s : Cursor) : Prop :=
  ∃ gap rest, s.rest = gap ++ rest ∧ skipGap s = .ok (s.past gap rest) ∧
    (s.past gap rest).glyphs = Table.skipGap false s.glyphs

section
variable {s : Cursor} {c : Char} {cs : List Char}

theorem Cursor.skips_of_last (hround : gapRound s = .ok (.last s))
    (hglyphs : Table.skipGap false s.glyphs = s.glyphs) : s.Skips :=
  ⟨[], s.rest, rfl, rounds_of_last hround, hglyphs.symm⟩

theorem Cursor.skips_of_next {run rest : List Char} (hrest : s.rest = run ++ rest)
    (hless : rest.length < s.rest.length) (hround : gapRound s = .ok (.next (s.past run rest)))
    (hglyphs : Table.skipGap false s.glyphs = Table.skipGap false (s.past run rest).glyphs)
    (h : (s.past run rest).Skips) : s.Skips := by
  obtain ⟨gap, rest', hrest', hskip, hglyphs'⟩ := h
  have hsplit : rest = gap ++ rest' := hrest'
  rw [Cursor.past_past] at hskip hglyphs'
  refine ⟨run ++ gap, rest', by rw [hrest, hsplit, List.append_assoc], ?_, ?_⟩
  · rw [← hskip]
    exact rounds_of_next hround hless
  · rw [hglyphs', hglyphs]

theorem Cursor.glyphs_cons (h : s.rest = c :: cs) :
    s.glyphs = ⟨c, s.position⟩ :: Glyph.locate (s.position.after c) cs := by
  rw [Cursor.glyphs, h, Glyph.locate]

/-- A comment is skipped in one round, which leaves its newline. -/
theorem Cursor.skips_comment (h : s.rest = '#' :: cs)
    (hrest : (s.past ('#' :: cs.takeWhile (· != '\n')) (cs.dropWhile (· != '\n'))).Skips) :
    s.Skips := by
  have htake : s.rest.takeWhile (· != '\n') = '#' :: cs.takeWhile (· != '\n') := by
    rw [h]
    exact List.takeWhile_cons_of_pos (by decide)
  have hdrop : s.rest.dropWhile (· != '\n') = cs.dropWhile (· != '\n') := by
    rw [h]
    exact List.dropWhile_cons_of_pos (by decide)
  refine skips_of_next ?_ ?_ ?_ ?_ hrest
  · rw [h, List.cons_append, List.takeWhile_append_dropWhile]
  · rw [h]
    exact Nat.lt_succ_of_le (List.dropWhile_sublist _).length_le
  · rw [gapRound, s.advance?_cons h]
    simp only [if_true, readWhile_eq, htake, hdrop]
    rfl
  · rw [glyphs_cons h, Table.skipGap, if_neg Bool.false_ne_true, if_pos rfl, skipGap_true,
      Glyph.dropWhile_locate (· != '\n')]
    rfl

theorem Cursor.skips_blank (h : s.rest = c :: cs) (hcomment : c ≠ '#')
    (hblank : Text.isBlank c = true) (hrest : (s.past [c] cs).Skips) : s.Skips := by
  refine skips_of_next h (by rw [h]; exact Nat.lt_succ_self _) ?_ ?_ hrest
  · rw [gapRound, s.advance?_cons h]
    simp only [if_neg hcomment, if_pos hblank]
    rfl
  · rw [glyphs_cons h, Table.skipGap, if_neg Bool.false_ne_true, if_neg hcomment, if_pos hblank]
    rfl

theorem Cursor.skips_other (h : s.rest = c :: cs) (hcomment : c ≠ '#')
    (hblank : ¬ Text.isBlank c = true) : s.Skips := by
  refine skips_of_last ?_ ?_
  · rw [gapRound, s.advance?_cons h]
    simp only [if_neg hcomment, if_neg hblank]
    rfl
  · rw [glyphs_cons h, Table.skipGap, if_neg Bool.false_ne_true, if_neg hcomment, if_neg hblank]

end

theorem skips (s : Cursor) : s.Skips := by
  -- on the length, as a comment is one round of its own
  induction hn : s.rest.length using Nat.strongRecOn generalizing s with
  | ind n ih =>
    subst hn
    cases hcs : s.rest with
    | nil =>
      refine Cursor.skips_of_last (by rw [gapRound, s.advance?_nil hcs]; rfl) ?_
      rw [Cursor.glyphs, hcs]
      rfl
    | cons c cs =>
      by_cases hcomment : c = '#'
      · subst hcomment
        have hless : (cs.dropWhile (· != '\n')).length < s.rest.length := by
          rw [hcs]
          exact Nat.lt_succ_of_le (List.dropWhile_sublist _).length_le
        exact Cursor.skips_comment hcs (ih _ hless _ rfl)
      · by_cases hblank : Text.isBlank c = true
        · have hless : cs.length < s.rest.length := by
            rw [hcs]
            exact Nat.lt_succ_self _
          exact Cursor.skips_blank hcs hcomment hblank (ih _ hless _ rfl)
        · exact Cursor.skips_other hcs hcomment hblank

/-! ### Tokens -/

theorem continues_of_not_nameStart {c d : Char} (hc : ¬ isNameStart c = true) :
    continues c d = (c == '.' && d == '.') := by
  rw [continues, if_neg hc]

theorem symbolOf?_name_eq {c : Char} (cs : List Char) (hc : isNameStart c = true) :
    Lexeme.symbolOf? (c :: cs) = some (symbolOfName (.ofList (c :: cs))) := by
  have hlist : ∀ text : String, String.ofList (c :: cs) = text ↔ c :: cs = text.toList := by
    intro text
    rw [← String.toList_inj, String.toList_ofList]
  unfold symbolOfName
  by_cases hif : c :: cs = ['i', 'f']
  · rw [if_pos ((hlist "if").mpr hif), hif]
    rfl
  · rw [if_neg (mt (hlist "if").mp hif)]
    by_cases hthrows : c :: cs = ['t', 'h', 'r', 'o', 'w', 's']
    · rw [if_pos ((hlist "throws").mpr hthrows), hthrows]
      rfl
    · rw [if_neg (mt (hlist "throws").mp hthrows), symbolOf?_name cs hc hif hthrows]

theorem symbolOf?_char_eq {c : Char} (hc : isNameStart c = false) :
    Lexeme.symbolOf? [c] = symbolOfChar? c := by
  unfold symbolOfChar?
  split
  case h_7 hparen hclose hopen hbrace hcomma hsemicolon =>
    refine symbolOf?_other hc ?_
    simpa [punctuation] using ⟨hparen, hclose, hopen, hbrace, hcomma, hsemicolon⟩
  all_goals rfl

theorem utf8Len_dots (n : Nat) : String.utf8Len (List.replicate n '.') = n := by
  induction n with
  | zero => rfl
  | succ n ih =>
    have hdot : '.'.utf8Size = 1 := rfl
    rw [List.replicate_succ, String.utf8Len_cons, ih, hdot]

section
variable (p : Position) (c : Char) (run : List Char)

theorem span_locate :
    (Lexeme.mk ⟨c, p⟩ (Glyph.locate (p.after c) run)).span =
      ⟨p, lastPosition p (p.after c) run⟩ :=
  congrArg (Span.mk p) (Option.getD_map Glyph.position ⟨c, p⟩ _).symm

theorem read_locate_some {symbol : Symbol} (h : Lexeme.symbolOf? (c :: run) = some symbol) :
    (Lexeme.mk ⟨c, p⟩ (Glyph.locate (p.after c) run)).read =
      .ok ⟨⟨p, lastPosition p (p.after c) run⟩, symbol⟩ := by
  rw [Lexeme.read, Lexeme.text_locate, h, span_locate]

theorem read_locate_none (h : Lexeme.symbolOf? (c :: run) = none) :
    (Lexeme.mk ⟨c, p⟩ (Glyph.locate (p.after c) run)).read = .error (.unrecognized p c) := by
  rw [Lexeme.read, Lexeme.text_locate, h]

end

/-- The reader on guard takes the whole lexeme that starts with the character. -/
def Takes (source : String) (s : Cursor) (c : Char) (cs : List Char) : Prop :=
  Mirrors
    (fun t r => r = (t, s.past (c :: cs.takeWhile (continues c)) (cs.dropWhile (continues c))))
    (Lexeme.mk ⟨c, s.position⟩
      (Glyph.locate (s.position.after c) (cs.takeWhile (continues c)))).read
    (tokenAt source s c (s.past [c] cs))

section
variable {source : String} {s : Cursor} {c : Char} {cs : List Char}

theorem readWhile_past (p : Char → Bool) (s : Cursor) (c : Char) (cs : List Char) :
    readWhile p s.position (s.past [c] cs) =
      .ok (lastPosition s.position (s.position.after c) (cs.takeWhile p),
        s.past (c :: cs.takeWhile p) (cs.dropWhile p)) := by
  rw [readWhile_eq, Cursor.past_past]
  rfl

theorem takes_name (hs : s.In source) (hrest : s.rest = c :: cs) (hname : isNameStart c = true) :
    Takes source s c cs := by
  have hcontinues : continues c = isNameChar := by
    funext d
    rw [continues, if_pos hname]
  have hslice : slice source s.offset
      (s.past (c :: cs.takeWhile isNameChar) (cs.dropWhile isNameChar)).offset =
        .ok (.ofList (c :: cs.takeWhile isNameChar)) := by
    refine hs.slice ?_
    rw [hrest, List.cons_append, List.takeWhile_append_dropWhile]
  rw [Takes, hcontinues, read_locate_some _ _ _ (symbolOf?_name_eq _ hname), tokenAt,
    if_pos hname, readWhile_past, ok_bind]
  simp only [hslice, ok_bind]
  exact .ok rfl

/-- The length of a run of dots is known from the bytes that it takes. -/
theorem takes_dots (source : String) (s : Cursor) (cs : List Char) : Takes source s '.' cs := by
  have hname : ¬ isNameStart '.' = true := by decide
  have hcontinues : continues '.' = (· == '.') := by
    funext d
    simp [continues_of_not_nameStart hname]
  obtain ⟨n, hn⟩ : ∃ n, cs.takeWhile (· == '.') = List.replicate n '.' :=
    ⟨_, List.eq_replicate_of_mem fun d hd => by simpa using List.mem_takeWhile_imp hd⟩
  have hbytes : (s.past ('.' :: cs.takeWhile (· == '.')) (cs.dropWhile (· == '.'))).offset -
      s.offset = n + 1 := by
    rw [hn, ← List.replicate_succ, Cursor.past, utf8Len_dots]
    exact Nat.add_sub_cancel_left ..
  have hsymbol := symbolOf?_dots n
  rw [List.replicate_succ, ← hn] at hsymbol
  rw [Takes, hcontinues, tokenAt, if_neg hname, if_pos rfl, readWhile_past, ok_bind]
  simp only [hbytes]
  by_cases hthree : n = 2
  · rw [if_pos hthree] at hsymbol
    rw [read_locate_some _ _ _ hsymbol, if_neg (by omega)]
    exact .ok rfl
  · rw [if_neg hthree] at hsymbol
    rw [read_locate_none _ _ _ hsymbol, if_pos (by omega)]
    exact .rejected _

theorem takes_other (source : String) (s : Cursor) (cs : List Char)
    (hname : ¬ isNameStart c = true) (hdot : c ≠ '.') : Takes source s c cs := by
  have hcontinues : ∀ d, ¬ continues c d = true := by
    intro d
    simp [continues_of_not_nameStart hname, hdot]
  have hnone : cs.takeWhile (continues c) = [] ∧ cs.dropWhile (continues c) = cs := by
    cases cs with
    | nil => exact ⟨rfl, rfl⟩
    | cons d cs =>
      exact ⟨List.takeWhile_cons_of_neg (hcontinues d), List.dropWhile_cons_of_neg (hcontinues d)⟩
  have hsymbol : Lexeme.symbolOf? [c] = symbolOfChar? c := symbolOf?_char_eq (by simpa using hname)
  rw [Takes, hnone.1, hnone.2, tokenAt, if_neg hname, if_neg hdot]
  cases hchar : symbolOfChar? c with
  | none =>
    rw [hchar] at hsymbol
    rw [read_locate_none _ _ _ hsymbol]
    exact .rejected _
  | some symbol =>
    rw [hchar] at hsymbol
    rw [read_locate_some _ _ _ hsymbol]
    exact .ok rfl

theorem takes (hs : s.In source) (hrest : s.rest = c :: cs) : Takes source s c cs := by
  by_cases hname : isNameStart c = true
  · exact takes_name hs hrest hname
  · by_cases hdot : c = '.'
    · exact hdot ▸ takes_dots source s cs
    · exact takes_other source s cs hname hdot

end

theorem token?_of_nil {source : String} {s : Cursor} (h : lexemes s.glyphs = []) :
    token? source s = .ok none := by
  obtain ⟨gap, rest, hrest, hskip, hglyphs⟩ := skips s
  cases rest with
  | nil =>
    rw [token?, hskip]
    rfl
  | cons c cs =>
    rw [lexemes_of_skipGap_cons hglyphs.symm] at h
    cases h

/-- The reader on guard takes the first lexeme off what follows, and the others are left. -/
theorem token?_mirrors {source : String} {s : Cursor} {l : Lexeme} {ls : List Lexeme}
    (hs : s.In source) (h : lexemes s.glyphs = l :: ls) :
    Mirrors
      (fun t r => ∃ u : Cursor, r = some (t, u) ∧ u.In source ∧ u.rest.length < s.rest.length ∧
        lexemes u.glyphs = ls)
      l.read (token? source s) := by
  obtain ⟨gap, rest, hrest, hskip, hglyphs⟩ := skips s
  cases rest with
  | nil =>
    rw [lexemes_of_skipGap_nil hglyphs.symm] at h
    cases h
  | cons c cs =>
    rw [lexemes_of_skipGap_cons hglyphs.symm, Glyph.takeWhile_locate, Glyph.dropWhile_locate] at h
    cases h
    have hv : (s.past gap (c :: cs)).In source := hs.past hrest
    have hcs : c :: cs.takeWhile (continues c) ++ cs.dropWhile (continues c) = c :: cs := by
      rw [List.cons_append, List.takeWhile_append_dropWhile]
    have htoken : token? source s = (do
        return some (← tokenAt source (s.past gap (c :: cs)) c
          ((s.past gap (c :: cs)).past [c] cs))) := by
      rw [token?, hskip]
      simp only [bind, Except.bind, Cursor.advance?_cons (s := s.past gap (c :: cs)) rfl]
    rw [htoken]
    refine (takes hv rfl).bind_right ?_
    rintro t r rfl
    refine ⟨_, rfl, _, rfl, hv.past hcs.symm, ?_, rfl⟩
    have hless : (cs.dropWhile (continues c)).length ≤ cs.length :=
      (List.dropWhile_sublist _).length_le
    rw [hrest, List.length_append, List.length_cons]
    exact Nat.lt_of_le_of_lt hless (by omega)

/-- Lexeme by lexeme, behind the tokens that have been read. -/
theorem rounds_tokens_mirrors {source : String} (ls : List Lexeme) {s : Cursor} (read : List Token)
    (hs : s.In source) (h : lexemes s.glyphs = ls) :
    Mirrors (fun ts us => us = read ++ ts) (ls.mapM Lexeme.read)
      (rounds (·.2.rest.length) (tokenRound source) (read, s)) := by
  induction ls generalizing s read with
  | nil =>
    have hround : tokenRound source (read, s) = .ok (.last read) := by
      rw [tokenRound, token?_of_nil h]
      rfl
    rw [rounds_of_last hround]
    exact .ok (List.append_nil read).symm
  | cons l ls ih =>
    have htoken := token?_mirrors hs h
    rw [List.mapM_cons]
    generalize hread : l.read = result at htoken
    generalize hnext : token? source s = next at htoken
    cases htoken with
    | rejected e =>
      have hround : tokenRound source (read, s) = .error (.rejected e) := by
        rw [tokenRound, hnext]
        rfl
      rw [rounds_of_error hround]
      exact .rejected e
    | @ok t r related =>
      obtain ⟨u, rfl, hu, hless, hothers⟩ := related
      have hround : tokenRound source (read, s) = .ok (.next (read ++ [t], u)) := by
        rw [tokenRound, hnext]
        rfl
      rw [rounds_of_next hround hless]
      refine (ih (read ++ [t]) hu hothers).bind_left fun ts us hts => ⟨t :: ts, rfl, ?_⟩
      rw [hts, List.append_assoc]
      rfl

theorem tokens_mirrors (source : String) :
    Mirrors (fun ts us => us = ts) (Table.tokens source) (tokens source) :=
  rounds_tokens_mirrors _ [] (Cursor.in_start source) rfl

end CapFixture.Table.Guarded
