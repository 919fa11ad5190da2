import CapFixture.Proofs.Table.Lexemes
import CapFixture.Proofs.Table.Parsing

/-!
# What tables declare

Every name and every define of a signature that is read from a table is an identifier other than
the keywords, and only its last argument may be variadic.

## Main definitions

- `IsWord` — the names of C, among which are the keywords of tables
- `IsIdentifier` — the names that can be written in a table
- `ValueType.words`, `Result.words` — the words that types are spelled with
- `Signature.Declarable` — the signatures that can be declared in a table
- `Signature.NamedByWords` — the signatures that can be declared in C
-/

namespace CapFixture

open Table

namespace Table

instance : DecidablePred NameStart := fun c => decidable_of_iff _ (isNameStart_iff c)

instance : DecidablePred NamePart := fun c => decidable_of_iff _ (isNameChar_iff c)

theorem NamePart.toNat_bounds {c : Char} (h : NamePart c) : 48 ≤ c.toNat ∧ c.toNat ≤ 122 := by
  have hle : ∀ a b : Char, a ≤ b → a.toNat ≤ b.toNat := fun _ _ h => UInt32.le_iff_toNat_le.mp h
  rcases h with (⟨hl, hr⟩ | ⟨hl, hr⟩ | rfl) | ⟨hl, hr⟩
  · exact ⟨Nat.le_trans (by decide) (hle _ _ hl), Nat.le_trans (hle _ _ hr) (by decide)⟩
  · exact ⟨Nat.le_trans (by decide) (hle _ _ hl), Nat.le_trans (hle _ _ hr) (by decide)⟩
  · decide
  · exact ⟨Nat.le_trans (by decide) (hle _ _ hl), Nat.le_trans (hle _ _ hr) (by decide)⟩

theorem NamePart.isBlank_eq_false {c : Char} (h : NamePart c) : Text.isBlank c = false := by
  obtain ⟨hlow, hhigh⟩ := h.toNat_bounds
  simp only [Text.isBlank, Text.inRanges, Text.blankRanges, List.any_cons, List.any_nil,
    Bool.or_eq_false_iff, Bool.and_eq_false_iff, decide_eq_false_iff_not, and_true]
  omega

theorem NamePart.ne_of_lt {c d : Char} (h : NamePart c) (hd : d.toNat < 48) : c ≠ d := by
  rintro rfl
  have := h.toNat_bounds.1
  omega

theorem forall_namePart {cs : List Char} (h : cs.all isNameChar = true) : ∀ c ∈ cs, NamePart c :=
  fun c hc => (isNameChar_iff c).mp (List.all_eq_true.mp h c hc)

end Table

/-- A letter or an underscore, and then letters, digits and underscores. -/
structure IsWord (name : String) : Prop where
  start : ∃ c ∈ name.toList.head?, NameStart c
  parts : ∀ c ∈ name.toList, NamePart c

theorem isWord_iff (name : String) : IsWord name ↔
    name.toList.head?.any isNameStart = true ∧ name.toList.all isNameChar = true := by
  have hstart : (∃ c ∈ name.toList.head?, NameStart c) ↔
      name.toList.head?.any isNameStart = true := by
    simp only [Option.mem_def, Option.any_eq_true, isNameStart_iff]
  have hparts : (∀ c ∈ name.toList, NamePart c) ↔ name.toList.all isNameChar = true := by
    simp [List.all_eq_true, isNameChar_iff]
  rw [← hstart, ← hparts]
  exact ⟨fun ⟨h₁, h₂⟩ => ⟨h₁, h₂⟩, fun ⟨h₁, h₂⟩ => ⟨h₁, h₂⟩⟩

theorem IsWord.ne_empty {name : String} (h : IsWord name) : name ≠ "" := by
  rintro rfl
  obtain ⟨c, hc, _⟩ := h.start
  simp at hc

instance : DecidablePred IsWord := fun name => decidable_of_iff _ (isWord_iff name).symm

/-- A letter or an underscore, and then letters, digits and underscores, but not a keyword. -/
structure IsIdentifier (name : String) : Prop where
  start : ∃ c ∈ name.toList.head?, NameStart c
  parts : ∀ c ∈ name.toList, NamePart c
  ne_if : name ≠ "if"
  ne_throws : name ≠ "throws"

theorem IsIdentifier.isWord {name : String} (h : IsIdentifier name) : IsWord name :=
  ⟨h.start, h.parts⟩

theorem isIdentifier_iff (name : String) : IsIdentifier name ↔
    name.toList.head?.any isNameStart = true ∧ name.toList.all isNameChar = true ∧
      name ≠ "if" ∧ name ≠ "throws" := by
  rw [← and_assoc, ← isWord_iff]
  exact ⟨fun h => ⟨h.isWord, h.ne_if, h.ne_throws⟩,
    fun ⟨hword, hif, hthrows⟩ => ⟨hword.start, hword.parts, hif, hthrows⟩⟩

theorem IsIdentifier.ne_empty {name : String} (h : IsIdentifier name) : name ≠ "" :=
  h.isWord.ne_empty

instance : DecidablePred IsIdentifier := fun name => decidable_of_iff _ (isIdentifier_iff name).symm

/-! ### Types -/

namespace ValueType

/-- The words of the spelling. -/
def words (t : ValueType) : List String := (t.name.toList.splitOn ' ').map String.ofList

theorem intercalate_words (t : ValueType) : " ".intercalate t.words = t.name := by
  cases t <;> decide

theorem isIdentifier_words (t : ValueType) : ∀ word ∈ t.words, IsIdentifier word := by
  cases t <;> decide

theorem words_ne_nil (t : ValueType) : t.words ≠ [] := by
  cases t <;> decide

/-- Inside the names of helpers, the words are joined by underscores. -/
theorem helperName_eq {t : ValueType} (h : t ≠ filcPtr) :
    t.helperName = "_".intercalate t.words := by
  apply String.toList_injective
  rw [helperName, if_neg h, String.toList_map]
  cases t <;> decide

end ValueType

namespace Result

/-- The words of the spelling. -/
def words : Result → List String
  | void => ["void"]
  | value type => type.words

theorem intercalate_words (r : Result) : " ".intercalate r.words = r.name := by
  cases r with
  | void => rfl
  | value type => exact type.intercalate_words

theorem isIdentifier_words (r : Result) : ∀ word ∈ r.words, IsIdentifier word := by
  cases r with
  | void => decide
  | value type => exact type.isIdentifier_words

theorem words_ne_nil (r : Result) : r.words ≠ [] := by
  cases r with
  | void => decide
  | value type => exact type.words_ne_nil

end Result

/-! ### Signatures -/

/-- A signature whose names are identifiers and which is variadic only at its end. -/
structure Signature.Declarable (s : Signature) : Prop where
  name : IsIdentifier s.name
  defines : ∀ define ∈ s.defines, IsIdentifier define
  variadic : .variadic ∉ s.arguments.dropLast

/-- The name and all defines are words. -/
structure Signature.NamedByWords (s : Signature) : Prop where
  name : IsWord s.name
  defines : ∀ define ∈ s.defines, IsWord define

theorem Signature.Declarable.namedByWords {s : Signature} (h : s.Declarable) : s.NamedByWords :=
  ⟨h.name.isWord, fun define hdefine => (h.defines define hdefine).isWord⟩

namespace Table

/-! ### Identifiers in the text -/

theorem Partition.exists_reading {before cs : List Char}
    {readings : List (Except TableError Token)} (h : Partition before cs readings)
    {reading : Except TableError Token} (hr : reading ∈ readings) :
    ∃ before rest lexeme, Reading before rest lexeme reading := by
  induction h with
  | nil => cases hr
  | cons _ reads _ ih =>
    rcases List.mem_cons.mp hr with rfl | hr
    · exact ⟨_, _, _, reads⟩
    · exact ih hr

theorem Reading.isIdentifier {before rest lexeme : List Char} {span : Span} {name : String}
    (h : Reading before rest lexeme (.ok ⟨span, .identifier name⟩)) : IsIdentifier name := by
  cases h with
  | @identifier c cs start parts ends not_if not_throws =>
    refine ⟨⟨c, by simp, start⟩, ?_, ?_, ?_⟩
    · intro d hd
      rcases List.mem_cons.mp (by simpa using hd) with rfl | hd
      · exact .inl start
      · exact parts d hd
    · intro h
      exact not_if (by simpa using congrArg String.toList h)
    · intro h
      exact not_throws (by simpa using congrArg String.toList h)
  | punctuation listed => simp [Table.punctuation] at listed

theorem isIdentifier_of_tokens {source : String} {ts : List Token} (h : tokens source = .ok ts)
    {name : String} (hname : .identifier name ∈ ts.map Token.symbol) : IsIdentifier name := by
  obtain ⟨⟨span, symbol⟩, ht, rfl⟩ := List.mem_map.mp hname
  have hread : .ok ⟨span, .identifier name⟩ ∈ readings source := by
    rw [tokens_eq_ok_iff.mp h]
    exact List.mem_map_of_mem ht
  obtain ⟨_, _, _, hreading⟩ := (partition_lexemes [] source.toList).exists_reading hread
  exact hreading.isIdentifier

/-! ### Declarations -/

theorem DerivesSeparated.variadic {symbols : List Symbol} {args : List Argument}
    (h : DerivesSeparated symbols args) : args ≠ [] ∧ .variadic ∉ args.dropLast := by
  induction h with
  | last => simp
  | more _ _ ih =>
    obtain ⟨hne, hlast⟩ := ih
    rw [List.dropLast_cons_of_ne_nil hne]
    exact ⟨by simp, by simpa using hlast⟩

theorem DerivesArguments.variadic {symbols : List Symbol} {args : List Argument}
    (h : DerivesArguments symbols args) : .variadic ∉ args.dropLast := by
  cases h with
  | none => simp
  | some separated => exact separated.variadic.2

theorem DerivesDeclaration.declarable {defines : List String} {symbols : List Symbol}
    {s : Signature} (h : DerivesDeclaration defines symbols s)
    (hsymbols : ∀ name, .identifier name ∈ symbols → IsIdentifier name)
    (hdefines : ∀ define ∈ defines, IsIdentifier define) : s.Declarable := by
  cases h with
  | intro nonempty spelled args_derive =>
    exact ⟨hsymbols _ (by simp [identifiers]), hdefines, args_derive.variadic⟩

/-- All that a table declares can be declared, if all its identifiers and all blocks around it
are. -/
theorem Derives.declarable {defines : List String} {symbols : List Symbol} {ss : List Signature}
    (h : Derives defines symbols ss)
    (hsymbols : ∀ name, .identifier name ∈ symbols → IsIdentifier name)
    (hdefines : ∀ define ∈ defines, IsIdentifier define) : ∀ s ∈ ss, s.Declarable := by
  induction h with
  | nil => simp
  | @block defines define body rest inner outer _ _ ihbody ihrest =>
    have hinner := ihbody (fun name h => hsymbols name (by simp [h])) (by
      intro other hother
      rcases List.mem_append.mp hother with hother | hother
      · exact hdefines other hother
      · obtain rfl := List.mem_singleton.mp hother
        exact hsymbols _ (by simp))
    have houter := ihrest (fun name h => hsymbols name (by simp [h])) hdefines
    intro s hs
    exact (List.mem_append.mp hs).elim (hinner s) (houter s)
  | declaration first_derives _ ih =>
    have hfirst := first_derives.declarable (fun name h => hsymbols name (by simp [h])) hdefines
    have hrest := ih (fun name h => hsymbols name (by simp [h])) hdefines
    exact List.forall_mem_cons.mpr ⟨hfirst, hrest⟩

/-- What is read from a table can be declared. -/
theorem declarable_of_parse {source : String} {ss : List Signature}
    (h : parse source = .ok ss) : ∀ s ∈ ss, s.Declarable := by
  obtain ⟨ts, htokens, hitems⟩ := bind_eq_ok_iff.mp h
  exact (items_eq_ok_iff.mp hitems).declarable (fun name => isIdentifier_of_tokens htokens)
    (by simp)

end Table

end CapFixture
