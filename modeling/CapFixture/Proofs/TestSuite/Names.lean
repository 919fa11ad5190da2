import CapFixture.Proofs.Text.Decimal
import CapFixture.TestSuite

/-!
# Names of tests

The name of a test spells its family, the numbers of what it is about, and how its pointer is
hidden. All of this can be read back from the name, and the name is a single step of a path.

## Main definitions

- `TestLabel` — what the name of a test spells
- `TestLabel.name` — the name
-/

namespace CapFixture

open TestProgram

namespace TestProgram.Opacity

variable (o : Opacity)

theorem suffix_injective : Function.Injective suffix := by
  intro o o' h
  rcases o with ⟨_ | _, _ | _⟩ <;> rcases o' with ⟨_ | _, _ | _⟩ <;> revert h <;> decide

theorem isDigit_head_suffix : ∀ c ∈ o.suffix.toList.head?, c.isDigit = false := by
  rcases o with ⟨_ | _, _ | _⟩ <;> simp [suffix]

theorem slash_not_mem_suffix : '/' ∉ o.suffix.toList := by
  rcases o with ⟨_ | _, _ | _⟩ <;> simp [suffix]

end TestProgram.Opacity

/-- What the name of a test spells. -/
inductive TestLabel where
  /-- The round trips of a group of layouts. -/
  | roundTrip (group : Nat)
  /-- The reads of a layout on one side of its buffer. -/
  | displaced (left : Bool) (index : Nat) (opacity : Opacity)
  /-- A layout and one of its confused layouts, of which the one is written and the other read. -/
  | confused (index confusedIndex : Nat) (reads : Bool) (opacity : Opacity)
  deriving DecidableEq, Repr

namespace TestLabel

/-- What the name starts with, up to its first number. -/
def family : TestLabel → String
  | roundTrip _ => "combostorm_success"
  | displaced true _ _ => "combostorm_oobleft"
  | displaced false _ _ => "combostorm_oobright"
  | confused _ _ _ _ => "combostorm_badtype"

/-- The first number. -/
def index : TestLabel → Nat
  | roundTrip group => group
  | displaced _ index _ => index
  | confused index _ _ _ => index

/-- The second number, where there is one. -/
def confusedIndex : TestLabel → Nat
  | confused _ confusedIndex _ _ => confusedIndex
  | _ => 0

/-- Whether the confused layout is read or written. -/
def direction (reads : Bool) : String := if reads then "_read" else "_write"

/-- What follows the first number. -/
def ending : TestLabel → List Char
  | roundTrip _ => []
  | displaced _ _ opacity => opacity.suffix.toList
  | confused _ confusedIndex reads opacity =>
    '_' :: (Nat.toDigits 10 confusedIndex ++ ((direction reads).toList ++ opacity.suffix.toList))

def name (l : TestLabel) : String := l.family ++ toString l.index ++ String.ofList l.ending

theorem toList_name (l : TestLabel) :
    l.name.toList = l.family.toList ++ (Nat.toDigits 10 l.index ++ l.ending) := by
  simp [name]

/-! ### Reading names -/

theorem isDigit_of_mem_family (l : TestLabel) {c : Char} (hc : c ∈ l.family.toList) :
    c.isDigit = false := by
  have hfamily : ∀ family ∈ ["combostorm_success", "combostorm_oobleft", "combostorm_oobright",
      "combostorm_badtype"], family.toList.all (fun c => !c.isDigit) = true := by decide
  have hall : l.family.toList.all (fun c => !c.isDigit) = true := by
    refine hfamily l.family ?_
    rcases l with _ | ⟨_ | _, _, _⟩ | _ <;> simp [family]
  simpa using List.all_eq_true.mp hall c hc

theorem isDigit_head_ending (l : TestLabel) : ∀ c ∈ l.ending.head?, c.isDigit = false := by
  cases l with
  | roundTrip group => simp [ending]
  | displaced left index opacity => exact opacity.isDigit_head_suffix
  | confused index confusedIndex reads opacity => simp [ending]

/-- The family is what stands before the first digit. -/
theorem takeWhile_name (l : TestLabel) :
    l.name.toList.takeWhile (!·.isDigit) = l.family.toList := by
  rw [toList_name, List.takeWhile_append_of_pos fun c hc => by simp [l.isDigit_of_mem_family hc]]
  obtain ⟨d, ds, hd⟩ := List.exists_cons_of_ne_nil (Nat.toDigits_ne_nil (n := l.index) (b := 10))
  have hdigit : d.isDigit = true := Text.isDigit_of_mem_decimal (n := l.index) (by simp [hd])
  simp [hd, hdigit]

theorem direction_append_inj {reads reads' : Bool} {o o' : Opacity}
    (h : (direction reads).toList ++ o.suffix.toList =
      (direction reads').toList ++ o'.suffix.toList) : reads = reads' ∧ o = o' := by
  obtain rfl : reads = reads' := by
    -- the second character tells
    cases reads <;> cases reads' <;> simp [direction] at h ⊢
  exact ⟨rfl, Opacity.suffix_injective (String.toList_injective (List.append_cancel_left h))⟩

theorem eq_of_parts_eq {l k : TestLabel} (hfamily : l.family = k.family)
    (hindex : l.index = k.index) (hending : l.ending = k.ending) : l = k := by
  cases l with
  | roundTrip group =>
    cases k with
    | roundTrip group' => exact congrArg roundTrip hindex
    | displaced left _ _ => cases left <;> simp [family] at hfamily
    | confused _ _ _ _ => simp [family] at hfamily
  | displaced left index opacity =>
    cases k with
    | roundTrip _ => cases left <;> simp [family] at hfamily
    | displaced left' index' opacity' =>
      obtain rfl : index = index' := hindex
      obtain rfl : opacity = opacity' :=
        Opacity.suffix_injective (String.toList_injective hending)
      cases left <;> cases left' <;> simp [family] at hfamily ⊢
    | confused _ _ _ _ => cases left <;> simp [family] at hfamily
  | confused index confusedIndex reads opacity =>
    cases k with
    | roundTrip _ => simp [family] at hfamily
    | displaced left _ _ => cases left <;> simp [family] at hfamily
    | confused index' confusedIndex' reads' opacity' =>
      obtain rfl : index = index' := hindex
      have hhead : ∀ (reads : Bool) (o : Opacity),
          ∀ c ∈ ((direction reads).toList ++ o.suffix.toList).head?, c.isDigit = false := by
        intro reads o
        cases reads <;> simp [direction]
      obtain ⟨rfl, hrest⟩ := (Text.decimal_append_inj (hhead _ _) (hhead _ _)).mp
        (List.cons.inj hending).2
      obtain ⟨rfl, rfl⟩ := direction_append_inj hrest
      rfl

/-- Different labels have different names. -/
theorem name_injective : Function.Injective name := by
  intro l k h
  have hchars : l.name.toList = k.name.toList := congrArg String.toList h
  have hfamily : l.family.toList = k.family.toList := by
    rw [← takeWhile_name, ← takeWhile_name, hchars]
  rw [toList_name, toList_name, hfamily] at hchars
  obtain ⟨hindex, hending⟩ := (Text.decimal_append_inj l.isDigit_head_ending
    k.isDigit_head_ending).mp (List.append_cancel_left hchars)
  exact eq_of_parts_eq (String.toList_injective hfamily) hindex hending

theorem head?_name (l : TestLabel) : l.name.toList.head? = some 'c' := by
  rw [toList_name]
  rcases l with _ | ⟨_ | _, _, _⟩ | _ <;> simp [family]

/-- A name is a single step of a path. -/
theorem slash_not_mem_name (l : TestLabel) : '/' ∉ l.name.toList := by
  have hdecimal : ∀ n, '/' ∉ Nat.toDigits 10 n := by
    intro n hmem
    cases Text.isDigit_of_mem_decimal hmem
  have hfamily : '/' ∉ l.family.toList := by
    rcases l with _ | ⟨_ | _, _, _⟩ | _ <;> simp [family]
  have hending : '/' ∉ l.ending := by
    rcases l with _ | ⟨_, _, opacity⟩ | ⟨_, _, _ | _, opacity⟩
    · simp [ending]
    · exact opacity.slash_not_mem_suffix
    · simp [ending, direction, hdecimal, opacity.slash_not_mem_suffix]
    · simp [ending, direction, hdecimal, opacity.slash_not_mem_suffix]
  simp [toList_name, hfamily, hdecimal, hending]

end TestLabel

end CapFixture
