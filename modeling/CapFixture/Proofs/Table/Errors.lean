import CapFixture.Proofs.Table.EarlyEnd
import CapFixture.Proofs.Table.Lexemes

/-!
# Where errors are

An error in a table is at a place of its text. An unrecognized character comes before everything
else. Other errors reach from the first character of a token to the last one of a token, and the end
of the table is on its last line.
-/

namespace CapFixture.Table

variable {source : String} {ts : List Token} {e : TableError}

/-! ### Spans -/

/-- A run of tokens covers what reaches from its first to its last one. -/
theorem exists_span_of_run {front run back : List Token} {first last : Token}
    (hts : ts = front ++ (run ++ back)) (hfirst : run.head? = some first)
    (hlast : run.getLast? = some last) :
    ∃ i j : Nat, i ≤ j ∧ ts[i]? = some first ∧ ts[j]? = some last := by
  obtain ⟨others, rfl⟩ := List.head?_eq_some_iff.mp hfirst
  refine ⟨front.length, front.length + others.length, Nat.le_add_right .., ?_, ?_⟩
  · rw [hts, List.getElem?_append_right (Nat.le_refl _), Nat.sub_self]
    rfl
  · rw [hts, List.getElem?_append_right (Nat.le_add_right ..), Nat.add_sub_cancel_left,
      List.getElem?_append_left (by simp), ← hlast, List.getLast?_eq_getElem?]
    rfl

/-- What an error is about starts with a token and ends with the same or with a later one. -/
theorem Blames.exists_tokens {endLine : Nat} {span : Span} (h : Blames endLine ts e)
    (hspan : e.span? = some span) :
    ∃ (i j : Nat) (first last : Token), i ≤ j ∧ ts[i]? = some first ∧ ts[j]? = some last ∧
      span = ⟨first.span.start, last.span.stop⟩ := by
  cases h with
  | @unexpected front back t wanted tokens =>
    cases hspan
    obtain ⟨i, j, hle, hi, hj⟩ := @exists_span_of_run ts front [t] back t t tokens rfl rfl
    exact ⟨i, j, t, t, hle, hi, hj, rfl⟩
  | unexpectedEnd => cases hspan
  | @argumentType front back before words first last tokens _ _ starts_with ends_with _ =>
    cases hspan
    rw [List.append_cons] at tokens
    obtain ⟨i, j, hle, hi, hj⟩ := @exists_span_of_run ts _ _ _ first.token last.token tokens
      (by rw [List.head?_map, starts_with]; rfl) (by rw [List.getLast?_map, ends_with]; rfl)
    exact ⟨i, j, _, _, hle, hi, hj, rfl⟩
  | @resultType front back words first name tokens _ _ starts_with _ =>
    cases hspan
    rw [List.append_cons] at tokens
    obtain ⟨i, j, hle, hi, hj⟩ := @exists_span_of_run ts _ _ _ first.token name.token tokens
      (by rw [List.head?_append, List.head?_map, starts_with]; rfl) List.getLast?_concat
    exact ⟨i, j, _, _, hle, hi, hj, rfl⟩
  | @misplacedVariadic front inside back name paren dots comma t tokens =>
    cases hspan
    have htokens : ts = (front ++ name.token :: paren :: (inside ++ [dots, comma])) ++
        ([t] ++ back) := by rw [tokens]; simp
    obtain ⟨i, j, hle, hi, hj⟩ := @exists_span_of_run ts _ _ _ t t htokens rfl rfl
    exact ⟨i, j, t, t, hle, hi, hj, rfl⟩
  | @unclosedBlock front inside keyword brace define tokens =>
    cases hspan
    have htokens : ts = front ++ ([keyword, define.token] ++ brace :: inside) := tokens
    obtain ⟨i, j, hle, hi, hj⟩ :=
      @exists_span_of_run ts _ _ _ keyword define.token htokens rfl rfl
    exact ⟨i, j, _, _, hle, hi, hj, rfl⟩

/-! ### Lines -/

/-- The last line is the one of the last character. -/
theorem lastLine_eq (source : String) :
    lastLine source = (Position.behind source.toList.dropLast).line := by
  by_cases h : source.toList = []
  · rw [lastLine, h]
    rfl
  · rw [lastLine, Text.length_lines h]
    exact Nat.max_eq_right (Nat.le_add_right ..)

/-- A token stands where its text does. -/
theorem Reading.span_eq {before rest lexeme : List Char} {t : Token}
    (h : Reading before rest lexeme (.ok t)) :
    t.span = spanBehind before lexeme ∧ lexeme ≠ [] := by
  cases h <;> exact ⟨rfl, List.cons_ne_nil _ _⟩

/-- What is unrecognized is the first character of a lexeme. -/
theorem Reading.unrecognized_first {before rest lexeme : List Char}
    (h : Reading before rest lexeme (.error e)) :
    ∃ c others, lexeme = c :: others ∧ e = .unrecognized (.behind before) c := by
  generalize hresult : Except.error e = result at h
  cases h with
  | @dots n positive =>
    obtain ⟨n, rfl⟩ := Nat.exists_eq_succ_of_ne_zero (Nat.ne_of_gt positive)
    exact ⟨'.', List.replicate n '.', rfl, Except.error.inj hresult⟩
  | unrecognized => exact ⟨_, [], rfl, Except.error.inj hresult⟩
  | _ => cases hresult

/-- Every reading has its lexeme in the text. -/
theorem exists_lexeme {result : Except TableError Token} (h : result ∈ readings source) :
    ∃ before lexeme rest, source.toList = before ++ (lexeme ++ rest) ∧
      Reading before rest lexeme result := by
  obtain ⟨pieces, last, hsource, _, hreadings, hpieces⟩ := readings_partition source
  rw [hreadings] at h
  obtain ⟨piece, hpiece, rfl⟩ := List.mem_map.mp h
  obtain ⟨front, back, rfl⟩ := List.append_of_mem hpiece
  obtain ⟨_, hreading⟩ := hpieces front piece back rfl
  refine ⟨_, piece.lexeme, _, ?_, hreading⟩
  rw [hsource]
  simp [Piece.text]

/-- No token is below the last line. -/
theorem line_le_lastLine {t : Token} (h : .ok t ∈ readings source) :
    t.span.start.line ≤ t.span.stop.line ∧ t.span.stop.line ≤ lastLine source := by
  obtain ⟨before, lexeme, rest, hsource, hreading⟩ := exists_lexeme h
  obtain ⟨hspan, hne⟩ := hreading.span_eq
  have hlexeme : lexeme.dropLast.Sublist (lexeme ++ rest).dropLast := by
    cases rest with
    | nil => rw [List.append_nil]
    | cons c rest =>
      rw [List.dropLast_append_of_ne_nil (List.cons_ne_nil c rest)]
      exact (List.dropLast_sublist lexeme).trans (List.sublist_append_left ..)
  have hsublist : (before ++ lexeme.dropLast).Sublist source.toList.dropLast := by
    rw [hsource, List.dropLast_append_of_ne_nil (by simp [hne])]
    exact (List.Sublist.refl before).append hlexeme
  rw [hspan, lastLine_eq]
  exact ⟨Nat.add_le_add_left ((List.sublist_append_left ..).count_le _) 1,
    Nat.add_le_add_left (hsublist.count_le _) 1⟩

/-! ### Errors -/

/-- The error of a table is its first unrecognized character, if there is one. Otherwise it is about
its tokens, and a span reaches from the first character of a token to the last one of the same or of
a later token. Where the end is reported, it is on the last line and behind all tokens, as an `if`
there would be the token that was not expected. Lines and columns are counted without a bound, as
counters of 32 bits do up to `2 ^ 32` characters. -/
theorem parse_error_located (source : String) :
    (∃ ts e others before ch rest, readings source = List.map .ok ts ++ .error e :: others ∧
      parse source = .error e ∧ source.toList = before ++ ch :: rest ∧
      e = .unrecognized (.behind before) ch) ∨
    ∃ ts, readings source = List.map .ok ts ∧ Partition [] source.toList (List.map .ok ts) ∧
      ∀ e, parse source = .error e → Blames (lastLine source) ts e ∧
        (∀ span, e.span? = some span → ∃ (i j : Nat) (first last : Token), i ≤ j ∧
          ts[i]? = some first ∧ ts[j]? = some last ∧
          span = ⟨first.span.start, last.span.stop⟩) ∧
        ∀ line wanted, e = .unexpectedEnd line wanted →
          line = (Position.behind source.toList.dropLast).line ∧
          (∀ t ∈ ts, t.span.start.line ≤ t.span.stop.line ∧ t.span.stop.line ≤ line) ∧
          ∀ t more, t.symbol = .keywordIf →
            items line [] (ts ++ t :: more) = .error (.unexpected t.span wanted t.symbol) := by
  rcases forall_ok_or_exists_first_error (readings source) with ⟨ts, hts⟩ | ⟨ts, e, others, hts⟩
  · refine .inr ⟨ts, hts, hts ▸ partition_lexemes [] source.toList, fun e he => ?_⟩
    have hparse : items (lastLine source) [] ts = .error e := by
      rw [parse, tokens_eq_ok_iff.mpr hts] at he
      exact he
    have hblames : Blames (lastLine source) ts e := blames_items atItem_nil hparse
    refine ⟨hblames, fun span hspan => hblames.exists_tokens hspan, ?_⟩
    rintro line wanted rfl
    obtain rfl : line = lastLine source := by
      cases hblames
      rfl
    refine ⟨lastLine_eq source, fun t ht => ?_, fun t more ht => ?_⟩
    · exact line_le_lastLine (hts ▸ List.mem_map_of_mem ht)
    · have hpersists : Persists t (items (lastLine source) [] ts)
          (items (lastLine source) [] (ts ++ t :: more)) := items_ifFollows ht [] rfl
      rw [hparse] at hpersists
      exact hpersists.of_unexpectedEnd
  · have hparse : parse source = .error e := by
      rw [parse, tokens, mapM_eq_error hts]
      rfl
    obtain ⟨before, lexeme, rest, hsource, hreading⟩ :=
      exists_lexeme (hts ▸ List.mem_append_right _ (List.mem_cons_self ..))
    obtain ⟨ch, run, rfl, rfl⟩ := hreading.unrecognized_first
    exact .inl ⟨ts, _, others, before, ch, run ++ rest, hts, hparse, hsource, rfl⟩

/-- The newline that ends the text starts no line, and the comment in front of it is no token. -/
example : parse "void f(\n# none\n" = .error (.unexpectedEnd 2 .argumentType) := by
  with_unfolding_all rfl

end CapFixture.Table
