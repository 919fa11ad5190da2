import Mathlib.Algebra.Ring.Nat
import CapFixture.Listing
import CapFixture.Proofs.Forwarder.Guards
import CapFixture.Proofs.Text.Parts

/-!
# Reading listings

A listing is read line by line. The layouts come first, each with its fields on a line of its own,
and the first line that is no layout is the one with their number.

## Main definitions

- `Field.read?`, `Layout.read?` — the field that a word is, and the layout that a line is
- `Listing.Contents` — what a listing tells
- `Listing.read?` — the contents of a listing
-/

namespace CapFixture

open Forwarder (after? after?_append forall_mem_toList_intercalate)
open Text (isDigit_of_mem_toString numeral? numeral?_toString parts parts_intercalate
  parts_of_not_mem)

theorem mapM_map_of_forall {α β : Type} {f : β → Option α} {g : α → β} (h : ∀ a, f (g a) = some a)
    (as : List α) : (as.map g).mapM f = some as := by
  induction as with
  | nil => rfl
  | cons a as ih => rw [List.map_cons, List.mapM_cons, h, ih]; rfl

/-! ### Fields -/

/-- The kind that the word stands for. -/
def Kind.ofWord? (word : String) : Option Kind := [int, ptr, padding].find? (·.word = word)

theorem Kind.isAlphanum_of_mem_word (kind : Kind) :
    ∀ c ∈ kind.word.toList, c.isAlphanum = true := by
  have hall : kind.word.toList.all Char.isAlphanum = true := by cases kind <;> rfl
  exact List.all_eq_true.mp hall

theorem Kind.ofWord?_word (kind : Kind) : ofWord? kind.word = some kind := by
  cases kind <;> decide

/-- The field with its offset, its kind and its size between colons. -/
def Field.read? (word : String) : Option Field :=
  match parts ':' word with
  | [offset, kind, size] => do return ⟨← numeral? offset, ← Kind.ofWord? kind, ← numeral? size⟩
  | _ => none

namespace Field

variable (f : Field)

theorem render_eq :
    f.render = ":".intercalate [toString f.offset, f.kind.word, toString f.size] := by
  simp [render, String.append_assoc]

theorem isAlphanum_of_mem {part : String}
    (hpart : part ∈ [toString f.offset, f.kind.word, toString f.size]) :
    ∀ c ∈ part.toList, c.isAlphanum = true := by
  have hnumber : ∀ n : Nat, ∀ c ∈ (toString n).toList, c.isAlphanum = true := by
    intro n c hc
    rw [Char.isAlphanum, isDigit_of_mem_toString hc, Bool.or_true]
  simp only [List.mem_cons, List.not_mem_nil, or_false] at hpart
  rcases hpart with rfl | rfl | rfl
  · exact hnumber f.offset
  · exact f.kind.isAlphanum_of_mem_word
  · exact hnumber f.size

theorem of_mem_render : ∀ c ∈ f.render.toList, c.isAlphanum = true ∨ c = ':' := by
  rw [render_eq]
  exact forall_mem_toList_intercalate (fun c hc => .inr (by simpa using hc))
    fun part hpart c hc => .inl (f.isAlphanum_of_mem hpart c hc)

theorem read?_render : read? f.render = some f := by
  have hparts : parts ':' f.render = [toString f.offset, f.kind.word, toString f.size] := by
    rw [render_eq]
    refine parts_intercalate (List.cons_ne_nil _ _) fun part hpart hcolon => ?_
    cases f.isAlphanum_of_mem hpart _ hcolon
  simp only [read?, hparts, numeral?_toString, Kind.ofWord?_word]
  rfl

end Field

/-! ### Layouts -/

/-- The layout with its fields between commas, of which a blank follows each. -/
def Layout.read? (line : String) : Option Layout :=
  if line = "" then some .empty
  else
    match parts ',' line with
    | [] => none
    | first :: others => do
      let others ← others.mapM (after? " ")
      return ⟨← (first :: others).mapM Field.read?⟩

namespace Layout

variable (l : Layout)

theorem of_mem_render : ∀ c ∈ l.render.toList, c.isAlphanum = true ∨ c ∈ [':', ',', ' '] := by
  refine forall_mem_toList_intercalate (fun c hc => ?_) (List.forall_mem_map.mpr fun f _ c hc => ?_)
  · exact .inr (List.mem_cons_of_mem _ hc)
  · exact (f.of_mem_render c hc).imp_right fun hcolon => by simp [hcolon]

theorem newline_not_mem_render : '\n' ∉ l.render.toList := by
  intro hc
  rcases l.of_mem_render _ hc with h | h
  · cases h
  · revert h
    decide

/-- The blank of a separator can be taken as the start of what follows. -/
theorem intercalate_comma (first : String) (others : List String) :
    ", ".intercalate (first :: others) = ",".intercalate (first :: others.map (" " ++ ·)) := by
  induction others generalizing first with
  | nil => rfl
  | cons second others ih =>
    have hseparator : ", " = "," ++ " " := rfl
    rw [String.intercalate_cons_cons, ih, List.map_cons, String.intercalate_cons_cons,
      String.intercalate_cons_append, hseparator]
    simp only [String.append_assoc]

theorem parts_render (f : Field) (fs : List Field) :
    parts ',' (render ⟨f :: fs⟩) = f.render :: (fs.map Field.render).map (" " ++ ·) := by
  have hcomma : ∀ g : Field, ',' ∉ g.render.toList := by
    intro g hg
    rcases g.of_mem_render _ hg with h | h <;> cases h
  rw [render, List.map_cons, intercalate_comma]
  refine parts_intercalate (List.cons_ne_nil _ _) (List.forall_mem_cons.mpr ⟨hcomma f, ?_⟩)
  refine List.forall_mem_map.mpr (List.forall_mem_map.mpr fun g _ => ?_)
  simp [hcomma g]

theorem read?_render : read? l.render = some l := by
  obtain ⟨fields⟩ := l
  cases fields with
  | nil => rfl
  | cons f fs =>
    have hne : render ⟨f :: fs⟩ ≠ "" := by
      intro h
      have hparts := parts_render f fs
      rw [h] at hparts
      have hread := f.read?_render
      rw [← (List.cons.inj hparts).1] at hread
      cases hread
    have hblanks := mapM_map_of_forall (after?_append " ") (fs.map Field.render)
    have hfields := mapM_map_of_forall Field.read?_render (f :: fs)
    rw [read?, if_neg hne, parts_render]
    simp only [hblanks, Option.bind_eq_bind, Option.bind_some]
    rw [← List.map_cons, hfields]
    rfl

/-- A line with a number behind a label is no layout. -/
theorem read?_label (label : String) (hcomma : ',' ∉ label.toList) (hcolon : ':' ∉ label.toList)
    (n : Nat) : read? (label ++ ": " ++ toString n) = none := by
  have hline : label ++ ": " ++ toString n = ":".intercalate [label, " " ++ toString n] := by
    have hseparator : ": " = ":" ++ " " := rfl
    rw [hseparator, String.intercalate_cons_cons, String.intercalate_singleton]
    simp only [String.append_assoc]
  have hnumber : ∀ c : Char, c.isDigit = false → c ∉ (toString n).toList := by
    intro c hc hmem
    rw [isDigit_of_mem_toString hmem] at hc
    cases hc
  have hwhole : parts ',' (label ++ ": " ++ toString n) = [label ++ ": " ++ toString n] := by
    refine parts_of_not_mem ?_
    simpa [hcomma] using hnumber ',' rfl
  have hcolons : parts ':' (label ++ ": " ++ toString n) = [label, " " ++ toString n] := by
    rw [hline]
    refine parts_intercalate (List.cons_ne_nil _ _) fun part hpart => ?_
    simp only [List.mem_cons, List.not_mem_nil, or_false] at hpart
    rcases hpart with rfl | rfl
    · exact hcolon
    · simpa using hnumber ':' rfl
  have hne : label ++ ": " ++ toString n ≠ "" := by
    intro h
    have hlength := congrArg (·.toList.length) h
    simp at hlength
  have hfield : Field.read? (label ++ ": " ++ toString n) = none := by rw [Field.read?, hcolons]
  rw [read?, if_neg hne, hwhole]
  simp only [List.mapM_nil, List.mapM_cons, hfield]
  rfl

end Layout

namespace Listing

/-- What a listing tells: its layouts, how many there are, and how many fields they have. -/
structure Contents where
  layouts : List Layout
  possibilities : Nat
  fields : Nat
  deriving DecidableEq, Repr

/-- The lines of a text, without their ends. -/
def rows (text : String) : List String :=
  (Text.lines text.toList).map fun line => .ofList (line.takeWhile (· ≠ '\n'))

/-- The number behind a label. -/
def total? (label row : String) : Option Nat := (after? label row).bind numeral?

/-- The two lines of totals. No layouts stand before them. -/
def totals? : List String → Option Contents
  | [first, last] => do
    return ⟨[], ← total? "# possibilities: " first, ← total? "total # fields: " last⟩
  | _ => none

/-- Lines up to the first one that is no layout, and then the totals. -/
def contentsFrom : List String → Option Contents
  | [] => none
  | row :: rows =>
    match Layout.read? row with
    | some l => (contentsFrom rows).map fun contents =>
        { contents with layouts := l :: contents.layouts }
    | none => totals? (row :: rows)

def read? (text : String) : Option Contents := contentsFrom (rows text)

variable (ls : List Layout)

theorem lines_eq : lines ls = ls.map Layout.render ++ ["# possibilities: " ++ toString ls.length,
    "total # fields: " ++ toString (ls.map Layout.length).sum] := by
  rw [lines, List.length_flatMap]
  rfl

theorem lines_join {texts : List String} (h : ∀ text ∈ texts, '\n' ∉ text.toList) :
    Text.lines (String.join (texts.map (· ++ "\n"))).toList =
      texts.map fun text => text.toList ++ ['\n'] := by
  induction texts with
  | nil => rfl
  | cons text texts ih =>
    rw [List.forall_mem_cons] at h
    have hjoin : (String.join ((text :: texts).map (· ++ "\n"))).toList =
        text.toList ++ '\n' :: (String.join (texts.map (· ++ "\n"))).toList := by
      simp
    rw [hjoin, Text.lines_append_newline h.1, ih h.2, List.map_cons]

theorem newline_not_mem_lines : ∀ row ∈ lines ls, '\n' ∉ row.toList := by
  have htotal : ∀ (label : String) (n : Nat), '\n' ∉ label.toList →
      '\n' ∉ (label ++ toString n).toList := by
    intro label n hlabel hmem
    rw [String.toList_append, List.mem_append] at hmem
    refine hmem.elim hlabel fun hmem => ?_
    cases isDigit_of_mem_toString hmem
  rw [lines]
  refine List.forall_mem_append.mpr
    ⟨List.forall_mem_map.mpr fun l _ => l.newline_not_mem_render, ?_⟩
  refine List.forall_mem_cons.mpr ⟨htotal _ _ (by decide), List.forall_mem_singleton.mpr ?_⟩
  exact htotal _ _ (by decide)

theorem lines_render :
    Text.lines (render ls).toList = (lines ls).map fun row => row.toList ++ ['\n'] :=
  lines_join (newline_not_mem_lines ls)

theorem rows_render : rows (render ls) = lines ls := by
  rw [rows, lines_render, List.map_map]
  refine (List.map_congr_left fun row hrow => ?_).trans (List.map_id _)
  have hrow := newline_not_mem_lines ls row hrow
  rw [Function.comp_apply, Text.takeWhile_run (fun c hc => ?_) (by simp), String.ofList_toList, id]
  rw [decide_eq_true_iff]
  rintro rfl
  exact hrow hc

theorem totals?_totals (possibilities fields : Nat) :
    totals? ["# possibilities: " ++ toString possibilities,
      "total # fields: " ++ toString fields] = some ⟨[], possibilities, fields⟩ := by
  have htotal : ∀ (label : String) (n : Nat), total? label (label ++ toString n) = some n := by
    intro label n
    rw [total?, after?_append, Option.bind_some, numeral?_toString]
  simp only [totals?, htotal]
  rfl

/-- Layouts are read until the first line that is none, which is the first of the totals. -/
theorem contentsFrom_append (possibilities fields : Nat) :
    contentsFrom (ls.map Layout.render ++
      ["# possibilities: " ++ toString possibilities, "total # fields: " ++ toString fields]) =
      some ⟨ls, possibilities, fields⟩ := by
  induction ls with
  | nil =>
    have hlabel := Layout.read?_label "# possibilities" (by decide) (by decide)
      possibilities
    have hmark : "# possibilities: " = "# possibilities" ++ ": " := rfl
    rw [← hmark] at hlabel
    rw [List.map_nil, List.nil_append, contentsFrom, hlabel]
    exact totals?_totals possibilities fields
  | cons l ls ih =>
    rw [List.map_cons, List.cons_append, contentsFrom, Layout.read?_render, ih]
    rfl

theorem read?_render :
    read? (render ls) = some ⟨ls, ls.length, (ls.map Layout.length).sum⟩ := by
  rw [read?, rows_render, lines_eq, contentsFrom_append]

/-- A listing is the lines of its layouts and the two lines of totals, and it tells the layouts. No
other layouts have the same listing. -/
theorem uniquely_readable :
    Text.lines (render ls).toList =
        (ls.map Layout.render ++ ["# possibilities: " ++ toString ls.length,
          "total # fields: " ++ toString (ls.map Layout.length).sum]).map
          (fun row => row.toList ++ ['\n']) ∧
      read? (render ls) = some ⟨ls, ls.length, (ls.map Layout.length).sum⟩ ∧
      ∀ ks, render ks = render ls → ks = ls := by
  refine ⟨by rw [lines_render, lines_eq], read?_render ls, fun ks h => ?_⟩
  have hread := read?_render ks
  rw [h, read?_render ls] at hread
  exact (congrArg Contents.layouts (Option.some.inj hread)).symm

end Listing

end CapFixture
