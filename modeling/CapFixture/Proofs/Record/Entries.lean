import Mathlib.Data.List.Basic
import CapFixture.Record.Entries

/-!
# Entries are read as they are written

Entries with single commas between them are read one after the other, each in the state that the
ones before it have left.

## Main definitions

- `EntriesRead` — entries that lead from one state to another
-/

namespace CapFixture.Record

variable {σ : Type} {close : Char} {entry : σ → List Char → Option (σ × List Char)}

theorem skipGap_cons {c : Char} (hslash : c ≠ '/') (hspace : isSpace c = false)
    (cs : List Char) : skipGap (c :: cs) = some (c :: cs) := by
  simp [skipGap, skipGapFrom, hslash, hspace]

/-- A text that starts neither with a gap nor with the closing character. -/
inductive StartsEntry (close : Char) : List Char → Prop where
  | intro {c : Char} {cs : List Char} (not_slash : c ≠ '/') (not_space : isSpace c = false)
      (not_close : c ≠ close) : StartsEntry close (c :: cs)

theorem StartsEntry.skipGap {text : List Char} (h : StartsEntry close text) (rest : List Char) :
    skipGap (text ++ rest) = some (text ++ rest) := by
  cases h with
  | intro hslash hspace _ => exact skipGap_cons hslash hspace _

/-- What can be told apart from a gap and from a comma. -/
structure Closes (close : Char) : Prop where
  not_slash : close ≠ '/'
  not_space : isSpace close = false
  not_comma : close ≠ ','

/-- The entries with these texts lead from one state to another, each whether a comma or the
closing character follows it. -/
inductive EntriesRead (close : Char) (entry : σ → List Char → Option (σ × List Char)) :
    σ → List (List Char) → σ → Prop where
  | nil {state : σ} : EntriesRead close entry state [] state
  | cons {before state after : σ} {text : List Char} {texts : List (List Char)}
      (starts : StartsEntry close text)
      (reads : ∀ c rest, c = ',' ∨ c = close →
        entry before (text ++ c :: rest) = some (state, c :: rest))
      (others : EntriesRead close entry state texts after) :
      EntriesRead close entry before (text :: texts) after

section
variable (hclose : Closes close) (steps : Nat)
include hclose

theorem entriesFrom_close (state : σ) (rest : List Char) :
    entriesFrom close entry (steps + 1) state (close :: rest) = some (state, rest) := by
  rw [entriesFrom, skipGap_cons hclose.not_slash hclose.not_space]
  simp

/-- An entry is read, and then either the others or the end. -/
theorem entriesFrom_entry {before state : σ} {text rest : List Char} {c : Char}
    (hstarts : StartsEntry close text) (hc : c = ',' ∨ c = close)
    (hread : entry before (text ++ c :: rest) = some (state, c :: rest)) :
    entriesFrom close entry (steps + 1) before (text ++ c :: rest) =
      if c = ',' then entriesFrom close entry steps state rest else some (state, rest) := by
  have hskip : skipGap (c :: rest) = some (c :: rest) := by
    rcases hc with rfl | rfl
    · exact skipGap_cons (by decide) (by decide) rest
    · exact skipGap_cons hclose.not_slash hclose.not_space rest
  cases hstarts with
  | intro hslash hspace hne =>
    rw [List.cons_append] at hread ⊢
    rw [entriesFrom, skipGap_cons hslash hspace]
    rcases hc with rfl | rfl
    · simp [hne, hread, hskip]
    · simp [hne, hread, hskip, hclose.not_comma]

theorem entriesFrom_of_read {before after : σ} {texts : List (List Char)}
    (h : EntriesRead close entry before texts after) (hsteps : texts.length < steps)
    (rest : List Char) :
    entriesFrom close entry steps before (List.intercalate [','] texts ++ close :: rest) =
      some (after, rest) := by
  induction h generalizing steps with
  | nil =>
    obtain ⟨steps, rfl⟩ := Nat.exists_eq_add_of_lt hsteps
    exact entriesFrom_close hclose _ _ rest
  | @cons before state after text texts hstarts hreads hothers ih =>
    obtain ⟨steps, rfl⟩ : ∃ n, steps = n + 1 := ⟨steps - 1, by omega⟩
    have hfewer : texts.length < steps := by simpa using hsteps
    -- the closing character follows the last entry, and a comma every other one
    cases texts with
    | nil =>
      cases hothers
      rw [List.intercalate_singleton,
        entriesFrom_entry hclose steps hstarts (.inr rfl) (hreads _ _ (.inr rfl)),
        if_neg hclose.not_comma]
    | cons next texts =>
      rw [List.intercalate_cons_cons, List.append_assoc, List.append_assoc, List.singleton_append,
        entriesFrom_entry hclose steps hstarts (.inl rfl) (hreads _ _ (.inl rfl)), if_pos rfl]
      exact ih steps hfewer

end

theorem length_le_intercalate (texts : List (List Char)) :
    texts.length ≤ (List.intercalate [','] texts).length + 1 := by
  induction texts with
  | nil => simp
  | cons text texts ih =>
    cases texts with
    | nil => simp
    | cons next texts =>
      rw [List.intercalate_cons_cons, List.length_append, List.length_append, List.length_cons]
      simp only [List.length_cons, List.length_nil] at ih ⊢
      omega

/-- Entries are read up to the closing character, whatever follows it. -/
theorem entries_of_read (hclose : Closes close) {before after : σ} {texts : List (List Char)}
    (h : EntriesRead close entry before texts after) (rest : List Char) :
    entries close entry before (List.intercalate [','] texts ++ close :: rest) =
      some (after, rest) := by
  have hlength := length_le_intercalate texts
  refine entriesFrom_of_read hclose _ h ?_ rest
  rw [List.length_append, List.length_cons]
  omega

end CapFixture.Record
