import CapFixture.Forwarder.Implementation
import CapFixture.Proofs.Table.Names

/-!
# Reading generated C

A generated text is read line by line, and a line as words and marks. What a line consists of is
worked out from the parts that it is put together from.

## Main definitions

- `CToken`, `tokens` — the words and marks of a text
- `Row`, `rows` — the lines of a text
-/

namespace CapFixture.Forwarder

open Table

/-- A word of letters, digits and underscores, or another single character. -/
inductive CToken where
  | word (name : String)
  | mark (c : Char)
  deriving DecidableEq, Repr

/-- The word, if it is one. -/
def CToken.word? : CToken → Option String
  | word name => some name
  | mark _ => none

/-- The word that a run of characters is, if there are any. -/
def wordOf (run : List Char) : List CToken :=
  if run.isEmpty then [] else [.word (.ofList run)]

/-- The tokens of a text, in front of which the run of a word stands. -/
def scan (run : List Char) : List Char → List CToken
  | [] => wordOf run
  | c :: cs =>
    if isNameChar c then scan (run ++ [c]) cs
    else if Text.isBlank c then wordOf run ++ scan [] cs
    else wordOf run ++ .mark c :: scan [] cs

/-- The words and marks of a text, without the blanks. -/
def tokens (s : String) : List CToken := scan [] s.toList

/-- A line: whether it is indented, and its tokens. -/
structure Row where
  indented : Bool
  tokens : List CToken
  deriving DecidableEq, Repr

def Row.ofLine (line : List Char) : Row := ⟨line.head? == some ' ', scan [] line⟩

/-- The lines of a text. -/
def rows (text : String) : List Row := (Text.lines text.toList).map Row.ofLine

/-! ### Tokens -/

/-- No name character stands at a place. -/
def isApart (place : Option Char) : Bool := place.all fun c => !isNameChar c

theorem isApart_iff {place : Option Char} :
    isApart place = true ↔ ∀ c ∈ place, isNameChar c = false := by
  simp [isApart, Option.all_eq_true]

/-- A text after a word that does not go on. -/
theorem scan_of_isApart {cs : List Char} (h : isApart cs.head? = true) (run : List Char) :
    scan run cs = wordOf run ++ scan [] cs := by
  cases cs with
  | nil => simp [scan, wordOf]
  | cons c cs =>
    have hc : isNameChar c = false := isApart_iff.mp h c rfl
    by_cases hblank : Text.isBlank c = true <;> simp [scan, hc, hblank, wordOf]

theorem scan_append {cs ds : List Char} (h : isApart ds.head? = true) (run : List Char) :
    scan run (cs ++ ds) = scan run cs ++ scan [] ds := by
  induction cs generalizing run with
  | nil => exact scan_of_isApart h run
  | cons c cs ih =>
    rw [List.cons_append, scan, scan]
    split
    · exact ih _
    · split
      · rw [ih, List.append_assoc]
      · rw [ih, List.append_assoc]
        rfl

theorem scan_append_name {cs : List Char} (h : ∀ c ∈ cs, isNameChar c = true) (run ds : List Char) :
    scan run (cs ++ ds) = scan (run ++ cs) ds := by
  induction cs generalizing run with
  | nil => simp
  | cons c cs ih =>
    rw [List.forall_mem_cons] at h
    rw [List.cons_append, scan, if_pos h.1, ih h.2]
    simp

/-- A text after one that does not end in a word. -/
theorem scan_append_of_last {cs : List Char} (h : isApart cs.getLast? = true) (ds : List Char) :
    scan [] (cs ++ ds) = scan [] cs ++ scan [] ds := by
  rcases List.eq_nil_or_concat' cs with rfl | ⟨cs, c, rfl⟩
  · rfl
  · -- The last character is no part of a word, so a run of its own starts behind it.
    have hc : isNameChar c = false := isApart_iff.mp h c (by simp)
    have hone : ∀ ds, isApart (c :: ds).head? = true := fun ds => by simp [isApart, hc]
    rw [List.append_assoc, List.singleton_append, scan_append (hone ds), scan_append (hone []),
      List.append_assoc]
    by_cases hblank : Text.isBlank c = true <;> simp [scan, hc, hblank, wordOf]

section
variable {s t : String}

/-- The tokens on the one side of a text that starts with no name character. -/
theorem tokens_append_right (h : isApart t.toList.head? = true) :
    tokens (s ++ t) = tokens s ++ tokens t := by
  rw [tokens, String.toList_append]
  exact scan_append h []

/-- The tokens on the other side of a text that ends with no name character. -/
theorem tokens_append_left (h : isApart s.toList.getLast? = true) :
    tokens (s ++ t) = tokens s ++ tokens t := by
  rw [tokens, String.toList_append]
  exact scan_append_of_last h _

/-- A run of name characters is one word. -/
theorem tokens_eq_word (hne : s ≠ "") (h : ∀ c ∈ s.toList, NamePart c) :
    tokens s = [.word s] := by
  have hrun := scan_append_name (fun c hc => (isNameChar_iff c).mpr (h c hc)) [] []
  rw [List.append_nil, List.nil_append] at hrun
  have hempty : s.toList.isEmpty = false := by simpa using hne
  rw [tokens, hrun, scan, wordOf, if_neg (by simp [hempty]), String.ofList_toList]

theorem mem_of_mark_mem_scan {c : Char} {run cs : List Char} (h : .mark c ∈ scan run cs) :
    c ∈ cs := by
  have hword : ∀ run, CToken.mark c ∉ wordOf run := by
    intro run
    unfold wordOf
    split <;> simp
  induction cs generalizing run with
  | nil => exact absurd h (hword run)
  | cons d cs ih =>
    rw [scan] at h
    split at h
    · exact List.mem_cons_of_mem _ (ih h)
    · split at h
      · rcases List.mem_append.mp h with h | h
        · exact absurd h (hword run)
        · exact List.mem_cons_of_mem _ (ih h)
      · rcases List.mem_append.mp h with h | h
        · exact absurd h (hword run)
        · rcases List.mem_cons.mp h with h | h
          · exact List.mem_cons.mpr (.inl (CToken.mark.inj h))
          · exact List.mem_cons_of_mem _ (ih h)

end

/-! ### Lines -/

theorem toList_pushn (s : String) (c : Char) (n : Nat) :
    (s.pushn c n).toList = s.toList ++ List.replicate n c := by
  rw [String.pushn_eq_repeat_push]
  induction n with
  | zero => simp [Nat.repeat]
  | succ n ih => rw [Nat.repeat, String.toList_push, ih, List.append_assoc, List.replicate_succ']

/-- What is read of a line of code. -/
def rowOf (l : Line) : Row := ⟨0 < l.depth, tokens l.text⟩

/-- A text that stays on its line and starts where it is put. -/
structure Legible (l : Line) : Prop where
  newline : '\n' ∉ l.text.toList
  start : l.depth = 0 → l.text.toList.head? ≠ some ' '

theorem toList_indentedText (l : Line) :
    l.indentedText.toList = List.replicate (4 * l.depth) ' ' ++ l.text.toList := by
  rw [Line.indentedText, String.toList_append, toList_pushn]
  rfl

theorem scan_replicate_blank (n : Nat) (cs : List Char) :
    scan [] (List.replicate n ' ' ++ cs) = scan [] cs := by
  induction n with
  | zero => rfl
  | succ n ih =>
    rw [List.replicate_succ, List.cons_append]
    exact ih

theorem ofLine_indentedText {l : Line} (h : Legible l) :
    Row.ofLine (l.indentedText.toList ++ ['\n']) = rowOf l := by
  have hapart : isApart ['\n'].head? = true := by decide
  rw [Row.ofLine, rowOf, toList_indentedText, List.append_assoc, scan_replicate_blank,
    scan_append hapart]
  refine congrArg₂ Row.mk ?_ (List.append_nil _)
  cases hdepth : l.depth with
  | zero =>
    have hstart := h.start hdepth
    cases htext : l.text.toList with
    | nil => rfl
    | cons c cs =>
      rw [htext] at hstart
      simpa using hstart
  | succ depth => simp [Nat.mul_succ, List.replicate_succ]

/-- The lines of rendered code. -/
theorem rows_render {c : Code} (h : ∀ l ∈ c, Legible l) : rows c.render = c.map rowOf := by
  induction c with
  | nil => rfl
  | cons l c ih =>
    rw [List.forall_mem_cons] at h
    have hline : '\n' ∉ l.indentedText.toList := by
      simp [toList_indentedText, h.1.newline]
    have htext : (Code.render (l :: c)).toList =
        l.indentedText.toList ++ '\n' :: (Code.render c).toList := by
      simp [Code.render, Line.render]
    rw [rows, htext, Text.lines_append_newline hline, List.map_cons, ofLine_indentedText h.1,
      List.map_cons, ← ih h.2]
    rfl

end CapFixture.Forwarder
