import CapFixture.Proofs.Results
import CapFixture.Proofs.Table.Lexemes

/-!
# Order of places and tokens

Lines and columns do not go back along a text, and the lexemes take its characters in their order.
So no token starts or stops behind a later one, also where lines end between them.

## Main definitions

- `Span.UpTo` — the one span neither starts nor stops behind the other
- `Table.Ordered` — tokens of which none starts or stops behind a later one
-/

namespace CapFixture

/-! ### Places -/

namespace Position

variable {p q r : Position}

theorem isLE_iff :
    (compare p q).isLE = true ↔ p.line < q.line ∨ p.line = q.line ∧ p.column ≤ q.column := by
  change ((compare p.line q.line).then (compare p.column q.column)).isLE = true ↔ _
  rw [Ordering.isLE_then_iff_or, Nat.compare_eq_lt, Nat.compare_eq_eq, Nat.isLE_compare]

theorem isLE_refl (p : Position) : (compare p p).isLE = true :=
  isLE_iff.mpr (.inr ⟨rfl, Nat.le_refl _⟩)

theorem isLE_trans (hpq : (compare p q).isLE = true) (hqr : (compare q r).isLE = true) :
    (compare p r).isLE = true := by
  rw [isLE_iff] at hpq hqr ⊢
  omega

theorem isLE_after (p : Position) (c : Char) : (compare p (p.after c)).isLE = true := by
  rw [isLE_iff, after]
  split
  · exact .inl (Nat.lt_succ_self _)
  · exact .inr ⟨rfl, Nat.le_succ _⟩

end Position

namespace Glyph

theorem isLE_of_mem_locate {p : Position} {cs : List Char} :
    ∀ g ∈ locate p cs, (compare p g.position).isLE = true := by
  induction cs generalizing p with
  | nil => simp [locate]
  | cons c cs ih =>
    refine List.forall_mem_cons.mpr ⟨p.isLE_refl, fun g hg => ?_⟩
    exact Position.isLE_trans (p.isLE_after c) (ih g hg)

/-- Lines and columns do not go back along a text. -/
theorem pairwise_locate (p : Position) (cs : List Char) :
    (locate p cs).Pairwise fun g h => (compare g.position h.position).isLE = true := by
  induction cs generalizing p with
  | nil => exact .nil
  | cons c cs ih =>
    refine .cons (fun g hg => ?_) (ih _)
    exact Position.isLE_trans (p.isLE_after c) (isLE_of_mem_locate g hg)

end Glyph

/-- The span neither starts nor stops behind the other one. -/
def Span.UpTo (s t : Span) : Prop :=
  (compare s.start t.start).isLE = true ∧ (compare s.stop t.stop).isLE = true

instance (s t : Span) : Decidable (s.UpTo t) := inferInstanceAs (Decidable (_ ∧ _))

theorem Span.upTo_refl (s : Span) : s.UpTo s := ⟨s.start.isLE_refl, s.stop.isLE_refl⟩

/-! ### Tokens -/

namespace Table

def Lexeme.glyphs (l : Lexeme) : List Glyph := l.first :: l.others

theorem skipGap_suffix (inComment : Bool) (gs : List Glyph) : skipGap inComment gs <:+ gs := by
  induction gs generalizing inComment with
  | nil => exact List.nil_suffix
  | cons g gs ih =>
    unfold skipGap
    split
    · exact (ih _).trans (List.suffix_cons g gs)
    · split
      · exact (ih _).trans (List.suffix_cons g gs)
      · split
        · exact (ih _).trans (List.suffix_cons g gs)
        · exact List.suffix_refl _

/-- The lexemes take their characters in the order of the text. -/
theorem flatMap_glyphs_sublist (gs : List Glyph) :
    ((lexemes gs).flatMap Lexeme.glyphs).Sublist gs := by
  induction gs using lexemes.induct with
  | case1 gs hgap =>
    rw [lexemes_of_skipGap_nil hgap]
    exact List.nil_sublist _
  | case2 gs g rest hgap ih =>
    rw [lexemes_of_skipGap_cons hgap, List.flatMap_cons]
    have hrest := (List.Sublist.refl (rest.takeWhile (continues g.char ·.char))).append ih
    rw [List.takeWhile_append_dropWhile] at hrest
    exact (hrest.cons_cons g).trans (hgap ▸ (skipGap_suffix false gs).sublist)

theorem pairwise_lexemes (p : Position) (cs : List Char) :
    (lexemes (Glyph.locate p cs)).Pairwise fun l m => l.span.UpTo m.span := by
  have hglyphs := (Glyph.pairwise_locate p cs).sublist (flatMap_glyphs_sublist _)
  refine (List.pairwise_flatMap.mp hglyphs).2.imp fun {l m} hlm => ?_
  have hlast : ∀ n : Lexeme, n.others.getLast?.getD n.first ∈ n.glyphs :=
    fun n => List.mem_of_getLast? List.getLast?_cons
  exact ⟨hlm _ List.mem_cons_self _ List.mem_cons_self, hlm _ (hlast l) _ (hlast m)⟩

theorem Lexeme.span_of_read {l : Lexeme} {t : Token} (h : l.read = .ok t) : t.span = l.span := by
  rw [Lexeme.read] at h
  split at h
  · cases h
    rfl
  · cases h

/-- No token starts or stops behind a later one. -/
def Ordered (ts : List Token) : Prop := ts.Pairwise fun t u => t.span.UpTo u.span

variable {ts front rest : List Token}

theorem Ordered.of_append (h : Ordered ts) (hts : ts = front ++ rest) : Ordered rest :=
  (List.pairwise_append.mp (hts ▸ h)).2.1

theorem Ordered.of_cons {t : Token} (h : Ordered ts) (hts : ts = t :: rest) : Ordered rest :=
  (List.pairwise_cons.mp (hts ▸ h)).2

theorem Ordered.upTo_of_mem {t u : Token} (h : Ordered (t :: ts)) (hu : u ∈ ts) :
    t.span.UpTo u.span :=
  (List.pairwise_cons.mp h).1 u hu

theorem Ordered.upTo_head {t u : Token} (h : Ordered (t :: ts)) (hts : ts = u :: rest) :
    t.span.UpTo u.span :=
  h.upTo_of_mem (hts ▸ List.mem_cons_self)

theorem ordered_tokens {source : String} (h : tokens source = .ok ts) : Ordered ts := by
  have hresults : (ts.map Except.ok).Pairwise fun (x y : Except TableError Token) =>
      ∀ t u, x = .ok t → y = .ok u → t.span.UpTo u.span := by
    rw [← mapM_eq_ok_iff_map.mp h]
    refine List.pairwise_map.mpr ((pairwise_lexemes _ _).imp fun hlm t u ht hu => ?_)
    rw [Lexeme.span_of_read ht, Lexeme.span_of_read hu]
    exact hlm
  exact (List.pairwise_map.mp hresults).imp fun htu => htu _ _ rfl rfl

end Table

end CapFixture
