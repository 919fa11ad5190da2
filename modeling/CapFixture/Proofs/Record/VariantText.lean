import CapFixture.Proofs.Record.Entries
import CapFixture.Proofs.Record.Quoted
import CapFixture.Record.VariantText

/-!
# Records of variants are read

The shortest record of a variant is read as the variant, whatever its numbers are and however its
name is spelled.

## Main definitions

- `Record.Member` — the fields of a variant, with how each is read
-/

namespace CapFixture

namespace Record

/-! ### Lists of numbers -/

theorem closes_bracket : Closes ']' := ⟨by decide, by decide, by decide⟩

theorem closes_paren : Closes ')' := ⟨by decide, by decide, by decide⟩

theorem numberEnds_of_separator {close c : Char} (hclose : close = ']' ∨ close = ')')
    (hc : c = ',' ∨ c = close) (rest : List Char) : NumberEnds (c :: rest) := by
  intro d hd
  obtain rfl := Option.some.inj hd
  rcases hc with rfl | rfl
  · decide
  · rcases hclose with rfl | rfl <;> decide

theorem startsEntry_decimal (n : Nat) : StartsEntry ']' (Nat.toDigits 10 n) := by
  have hdigit : ∀ c ∈ Nat.toDigits 10 n, c.isDigit = true := fun c hc =>
    Text.isDigit_of_mem_decimal hc
  obtain ⟨c, cs, hdigits⟩ := List.exists_cons_of_ne_nil (Nat.toDigits_ne_nil (n := n) (b := 10))
  rw [hdigits] at hdigit ⊢
  have hne : ∀ d, d.isDigit = false → c ≠ d := by
    rintro d hd rfl
    rw [hdigit c (by simp)] at hd
    cases hd
  refine .intro (hne '/' rfl) ?_ (hne ']' rfl)
  simp [isSpace, hne ' ' rfl, hne '\t' rfl, hne '\n' rfl, hne '\r' rfl]

theorem numbersRead {ns : List Nat} (h : ∀ n ∈ ns, n ≤ maxNumber) (before : List Nat) :
    EntriesRead ']' (fun ns cs => do
      let (n, rest) ← number cs
      return (ns ++ [n], rest)) before (ns.map (Nat.toDigits 10)) (before ++ ns) := by
  induction ns generalizing before with
  | nil =>
    rw [List.append_nil]
    exact .nil
  | cons n ns ih =>
    obtain ⟨hn, hns⟩ := List.forall_mem_cons.mp h
    rw [List.append_cons]
    refine .cons (startsEntry_decimal n) ?_ (ih hns (before ++ [n]))
    intro c rest hc
    rw [number_decimal hn (numberEnds_of_separator (.inl rfl) hc rest)]
    rfl

theorem toList_numberList (ns : List Nat) : (Variant.numberList ns).toList =
    '[' :: (List.intercalate [','] (ns.map (Nat.toDigits 10)) ++ [']']) := by
  have hdigits : String.toList ∘ toString = Nat.toDigits 10 := funext Text.toList_toString
  rw [Variant.numberList, String.toList_append, String.toList_append, String.toList_intercalate,
    List.map_map, hdigits]
  rfl

theorem numbers_numberList {ns : List Nat} (h : ∀ n ∈ ns, n ≤ maxNumber) (rest : List Char) :
    numbers ((Variant.numberList ns).toList ++ rest) = some (ns, rest) := by
  rw [toList_numberList, List.cons_append, List.append_assoc]
  exact entries_of_read closes_bracket (numbersRead h []) rest

/-! ### Fields -/

theorem isWordChar_eq_false_of_startsWith {rest : List Char}
    (h : startsWith isRawWordChar rest = false) : ∀ c ∈ rest.head?, isWordChar c = false := by
  intro c hc
  cases rest with
  | nil => cases hc
  | cons d rest =>
    obtain rfl := Option.some.inj hc
    have hraw : isRawWordChar d = false := h
    simp only [isRawWordChar, Bool.or_eq_false_iff] at hraw
    exact hraw.1.1.1

/-- A word of more than one letter, which a raw text cannot start with. -/
theorem word_plain {key rest : List Char} (hstart : startsWith isWordStart key = true)
    (hkey : key.all isWordChar = true) (hlong : 1 < key.length)
    (hrest : startsWith isRawWordChar rest = false) : word (key ++ rest) = some (key, rest) := by
  rw [List.all_eq_true] at hkey
  have hends := isWordChar_eq_false_of_startsWith hrest
  match key, hlong with
  | c :: d :: key, _ =>
    have hd : isWordChar d = true := hkey d (by simp)
    have hfirst : startsWith isWordStart (c :: d :: key ++ rest) = true := hstart
    have hplain : plainWord (c :: d :: key ++ rest) = some (c :: d :: key, rest) := by
      rw [plainWord, Text.dropWhile_run hkey hends, Text.takeWhile_run hkey hends, hfirst, hrest]
      rfl
    -- the second letter is neither the quote nor the mark of a raw text
    unfold word
    split
    · next h => cases (List.cons.inj h).2
    · next h =>
      obtain rfl := (List.cons.inj (List.cons.inj h).2).1
      cases hd
    · next h =>
      obtain rfl := (List.cons.inj (List.cons.inj h).2).1
      cases hd
    · exact hplain

/-- The fields of a variant: their names, what has been read of them, how their values are read, and
the draft with a value. -/
inductive Member (d : Draft) : {α : Type} → String → Option α →
    (List Char → Option (α × List Char)) → (α → Draft) → Prop where
  | name : Member d "name" d.name text fun name => { d with name := some name }
  | byteLimit : Member d "byte_limit" d.byteLimit number fun n => { d with byteLimit := some n }
  | intSizes : Member d "int_sizes" d.intSizes numbers fun ns => { d with intSizes := some ns }
  | paddingAmounts : Member d "padding_amounts" d.paddingAmounts numbers fun ns =>
      { d with paddingAmounts := some ns }
  | capabilityWidth : Member d "capability_width" d.capabilityWidth number fun n =>
      { d with capabilityWidth := some n }
  | recursionStep : Member d "recursion_step" d.recursionStep number fun n =>
      { d with recursionStep := some n }

section
variable {d : Draft} {α : Type} {key : String} {old : Option α}
  {read : List Char → Option (α × List Char)} {set : α → Draft}

theorem Member.word (h : Member d key old read set) (cs : List Char) :
    word (key.toList ++ ':' :: cs) = some (key.toList, ':' :: cs) := by
  have hcolon : startsWith isRawWordChar (':' :: cs) = false := rfl
  cases h <;> exact word_plain (by decide) (by decide) (by decide) hcolon

theorem Member.starts (h : Member d key old read set) (cs : List Char) :
    StartsEntry ')' (key.toList ++ cs) := by
  cases h <;> exact .intro (by decide) (by decide) (by decide)

/-- A field that has not been read before takes its value. -/
theorem field_of_member {bare : Bool} {cs rest : List Char} {value : α}
    (h : Member d key old read set) (hold : old = none) (hcs : skipGap cs = some cs)
    (hread : read cs = some (value, rest)) :
    field bare d (key.toList ++ ':' :: cs) = some (set value, rest) := by
  have hcolon : skipGap (':' :: cs) = some (':' :: cs) := skipGap_cons (by decide) (by decide) cs
  have honce : once old read cs = some (value, rest) := by
    rw [hold]
    exact hread
  unfold field
  rw [h.word cs, Option.bind_eq_bind, Option.bind_some]
  dsimp only
  rw [hcolon, Option.bind_eq_bind, Option.bind_some, expect, if_pos rfl, Option.bind_eq_bind,
    Option.bind_some, hcs, Option.bind_eq_bind, Option.bind_some]
  cases h with
  | name =>
    rw [if_pos rfl, honce]
    rfl
  | byteLimit =>
    rw [if_neg (by decide), if_pos rfl, honce]
    rfl
  | intSizes =>
    rw [if_neg (by decide), if_neg (by decide), if_pos rfl, honce]
    rfl
  | paddingAmounts =>
    rw [if_neg (by decide), if_neg (by decide), if_neg (by decide), if_pos rfl, honce]
    rfl
  | capabilityWidth =>
    rw [if_neg (by decide), if_neg (by decide), if_neg (by decide), if_neg (by decide),
      if_pos rfl, honce]
    rfl
  | recursionStep =>
    rw [if_neg (by decide), if_neg (by decide), if_neg (by decide), if_neg (by decide),
      if_neg (by decide), if_pos rfl, honce]
    rfl

/-- A text of a value in a field. -/
structure WrittenAs (read : List Char → Option (α × List Char)) (value : α) (text : List Char) :
    Prop where
  no_gap : ∀ rest, skipGap (text ++ rest) = some (text ++ rest)
  reads : ∀ c rest, c = ',' ∨ c = ')' → read (text ++ c :: rest) = some (value, c :: rest)

theorem EntriesRead.member {bare : Bool} {text : List Char} {texts : List (List Char)}
    {final : Draft} {value : α} (h : Member d key old read set) (hold : old = none)
    (hvalue : WrittenAs read value text)
    (hothers : EntriesRead ')' (field bare) (set value) texts final) :
    EntriesRead ')' (field bare) d ((key.toList ++ ':' :: text) :: texts) final := by
  refine .cons (h.starts _) ?_ hothers
  intro c rest hc
  rw [List.append_assoc, List.cons_append]
  exact field_of_member h hold (hvalue.no_gap _) (hvalue.reads c rest hc)

end

theorem writtenAs_text {cs name : List Char} (h : SpellsText cs name) :
    WrittenAs text cs ('"' :: (name ++ ['"'])) where
  no_gap rest := skipGap_cons (by decide) (by decide) _
  reads c rest _ := by
    rw [List.cons_append, List.append_assoc]
    exact h.text_eq (c :: rest)

theorem writtenAs_number {n : Nat} (h : n ≤ maxNumber) :
    WrittenAs number n (Nat.toDigits 10 n) where
  no_gap rest := (startsEntry_decimal n).skipGap rest
  reads _ rest hc := number_decimal h (numberEnds_of_separator (.inr rfl) hc rest)

theorem writtenAs_numbers {ns : List Nat} (h : ∀ n ∈ ns, n ≤ maxNumber) :
    WrittenAs numbers ns (Variant.numberList ns).toList where
  no_gap rest := by
    rw [toList_numberList]
    exact skipGap_cons (by decide) (by decide) _
  reads c rest _ := numbers_numberList h (c :: rest)

/-! ### Variants -/

variable {v : Variant} {name : List Char}

/-- The fields of a variant in their order, as they are written. -/
def writtenFields (v : Variant) (name : List Char) : List (List Char) :=
  [ "name".toList ++ ':' :: '"' :: (name ++ ['"']),
    "byte_limit".toList ++ ':' :: Nat.toDigits 10 v.byteLimit,
    "int_sizes".toList ++ ':' :: (Variant.numberList v.intSizes).toList,
    "padding_amounts".toList ++ ':' :: (Variant.numberList v.paddingAmounts).toList,
    "capability_width".toList ++ ':' :: Nat.toDigits 10 v.capabilityWidth,
    "recursion_step".toList ++ ':' :: Nat.toDigits 10 v.recursionStep ]

theorem toList_record (v : Variant) (name : List Char) : (v.record name).toList =
    '(' :: (List.intercalate [','] (writtenFields v name) ++ [')']) := by
  -- every field but the first has the comma before it in its own text
  have hname : "(name:\"".toList = '(' :: ("name".toList ++ [':', '"']) := rfl
  have hlimit : "\",byte_limit:".toList = '"' :: ',' :: ("byte_limit".toList ++ [':']) := rfl
  have hsizes : ",int_sizes:".toList = ',' :: ("int_sizes".toList ++ [':']) := rfl
  have hamounts : ",padding_amounts:".toList = ',' :: ("padding_amounts".toList ++ [':']) := rfl
  have hwidth : ",capability_width:".toList = ',' :: ("capability_width".toList ++ [':']) := rfl
  have hstep : ",recursion_step:".toList = ',' :: ("recursion_step".toList ++ [':']) := rfl
  have hclose : ")".toList = [')'] := rfl
  unfold Variant.record
  simp only [writtenFields, String.toList_append, String.toList_ofList, Text.toList_toString, hname,
    hlimit, hsizes, hamounts, hwidth, hstep, hclose, List.intercalate_cons_cons,
    List.intercalate_singleton, List.append_assoc, List.cons_append, List.nil_append]

/-- The variant as a draft, with all its members read. -/
def Draft.of (v : Variant) : Draft :=
  ⟨some v.name.toList, some v.byteLimit, some v.intSizes, some v.paddingAmounts,
    some v.capabilityWidth, some v.recursionStep⟩

theorem Draft.finish_of (v : Variant) : (Draft.of v).finish = some v := by
  simp [Draft.of, Draft.finish]

theorem fieldsRead (bare : Bool) (h : v.InRange) (hname : SpellsText v.name.toList name) :
    EntriesRead ')' (field bare) .empty (writtenFields v name) (.of v) := by
  have hle : ∀ {n : Nat}, n < wordSize → n ≤ maxNumber := fun hn => Nat.le_sub_one_of_lt hn
  refine .member .name rfl (writtenAs_text hname) ?_
  refine .member .byteLimit rfl (writtenAs_number (hle h.byteLimit)) ?_
  refine .member .intSizes rfl (writtenAs_numbers fun n hn => hle (h.intSizes n hn)) ?_
  refine .member .paddingAmounts rfl (writtenAs_numbers fun n hn => hle (h.paddingAmounts n hn)) ?_
  refine .member .capabilityWidth rfl (writtenAs_number (hle h.capabilityWidth)) ?_
  refine .member .recursionStep rfl (writtenAs_number (hle h.recursionStep)) ?_
  exact .nil

/-- A shortest record loses nothing of a variant. -/
theorem variant_record (h : v.InRange) (hname : SpellsText v.name.toList name) :
    variant (v.record name).toList = some v := by
  rw [toList_record]
  generalize hfields : List.intercalate [','] (writtenFields v name) ++ [')'] = cs
  have hopen : skipGap ('(' :: cs) = some ('(' :: cs) := skipGap_cons (by decide) (by decide) cs
  -- no attribute and no name of a type stands before the parenthesis
  have hattributes : readAttributes (('(' :: cs).length + 1) false ('(' :: cs) =
      some (false, '(' :: cs) := rfl
  have htype : typeName ('(' :: cs) = some ('(' :: cs) := rfl
  have hentries : entries ')' (field false) .empty cs = some (.of v, []) := by
    rw [← hfields]
    exact entries_of_read closes_paren (fieldsRead false h hname) []
  have hend : skipGap [] = some [] := rfl
  unfold variant
  simp only [hopen, hattributes, htype, expect, hentries, hend, Option.bind_eq_bind,
    Option.bind_some, if_true, Draft.finish_of]

end Record

namespace Variant

theorem codec_lawful : codec.Lawful where
  written := ⟨Text.isHidden, fun _ _ => rfl⟩
  reads v name h hname := by
    simp only [codec, Record.variant_record h hname]

example : codec.write (.mk "\"\u0301" 24 [1, 8] [] 8 8) =
    "(name:\"\\\"\\u\x7b301\x7d\",byte_limit:24,int_sizes:[1,8],padding_amounts:[]," ++
      "capability_width:8,recursion_step:8)" := by
  decide

end Variant

end CapFixture
