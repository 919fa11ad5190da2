import CapFixture.Proofs.Forwarder.Lines

/-!
# Guards in the generated code

Which lines of the header and of the source are compiled, read as the preprocessor reads them. For
whatever symbols are defined, the header declares exactly the functions that the source defines.

## Main definitions

- `Row.role` — what a line is to the preprocessor
- `survivors` — the lines that are compiled
- `sections` — the guarded lines with their conditions
- `declared` — the names that lines at the top level declare
-/

namespace CapFixture.Forwarder

open Table

/-- What a line is to the preprocessor. -/
inductive Role where
  /-- The start of lines that are compiled if all of the symbols are defined. -/
  | opens (symbols : List String)
  | closes
  | unreadable
  | text
  deriving DecidableEq, Repr

/-- The symbols of a condition that asks for all of them. -/
def conjunction? : List CToken → Option (List String)
  | [.word symbol] => some [symbol]
  | .word symbol :: .mark '&' :: .mark '&' :: rest => (conjunction? rest).map (symbol :: ·)
  | _ => none

/-- A directive with what follows its name. The guard against reading a header twice is open. -/
def directiveRole (name : String) (rest : List CToken) : Role :=
  if name = "if" then
    match conjunction? rest with
    | some symbols => .opens symbols
    | none => .unreadable
  else if name = "ifndef" then .opens []
  else if name = "endif" then .closes
  else if name = "include" ∨ name = "define" then .text
  else .unreadable

def Row.role (row : Row) : Role :=
  match row.tokens with
  | .mark '#' :: .word name :: rest => directiveRole name rest
  | .mark '#' :: _ => .unreadable
  | _ => .text

/-- The lines that are compiled, and nothing if guards are not paired. For each guard that is open,
`guards` tells whether its condition holds. -/
def survivors (defined : String → Bool) (guards : List Bool) : List Row → Option (List Row)
  | [] => if guards.isEmpty then some [] else none
  | row :: rest =>
    match row.role, guards with
    | .opens symbols, _ => survivors defined (symbols.all defined :: guards) rest
    | .closes, _ :: outer => survivors defined outer rest
    | .text, _ =>
      (survivors defined guards rest).map fun later =>
        if guards.all id then row :: later else later
    | _, _ => none

/-- The conditions of all guards with the lines behind them, and nothing if guards are not paired or
if one stands inside of another. -/
def sections (current : Option (List String × List Row)) :
    List Row → Option (List (List String × List Row))
  | [] => if current.isNone then some [] else none
  | row :: rest =>
    match row.role, current with
    | .opens symbols, none => sections (some (symbols, [])) rest
    | .closes, some guarded => (sections none rest).map (guarded :: ·)
    | .text, none => sections none rest
    | .text, some (symbols, before) => sections (some (symbols, before ++ [row])) rest
    | _, _ => none

/-- The first word in front of a parenthesis or of an equals sign. -/
def declaredWord? : List CToken → Option String
  | .word name :: .mark '(' :: _ => some name
  | .word name :: .mark '=' :: _ => some name
  | _ :: rest => declaredWord? rest
  | [] => none

/-- What follows `mark` in a name. -/
def after? (mark name : String) : Option String :=
  (mark.toList.isPrefixOf? name.toList).map String.ofList

/-- What follows `mark` in the name that a line at the top level declares. -/
def Row.declared? (mark : String) (row : Row) : Option String :=
  if row.indented then none else (declaredWord? row.tokens).bind (after? mark)

/-- The names behind `mark` that the lines declare, in their order. -/
def declared (mark : String) (lines : List Row) : List String :=
  lines.filterMap (Row.declared? mark)

/-! ### Single lines -/

section
variable {defined : String → Bool} {row : Row} {rest : List Row} {symbols : List String}

theorem survivors_opens (h : row.role = .opens symbols) (guards : List Bool) :
    survivors defined guards (row :: rest) =
      survivors defined (symbols.all defined :: guards) rest := by
  rw [survivors.eq_def]
  simp only [h]

theorem survivors_closes (h : row.role = .closes) (holds : Bool) (guards : List Bool) :
    survivors defined (holds :: guards) (row :: rest) = survivors defined guards rest := by
  rw [survivors.eq_def]
  simp only [h]

theorem survivors_text (h : row.role = .text) (guards : List Bool) :
    survivors defined guards (row :: rest) = (survivors defined guards rest).map fun later =>
      if guards.all id then row :: later else later := by
  rw [survivors.eq_def]
  simp only [h]

theorem sections_opens (h : row.role = .opens symbols) :
    sections none (row :: rest) = sections (some (symbols, [])) rest := by
  rw [sections.eq_def]
  simp only [h]

theorem sections_closes (h : row.role = .closes) (guarded : List String × List Row) :
    sections (some guarded) (row :: rest) = (sections none rest).map (guarded :: ·) := by
  rw [sections.eq_def]
  simp only [h]

theorem sections_text (h : row.role = .text) :
    sections none (row :: rest) = sections none rest := by
  rw [sections.eq_def]
  simp only [h]

theorem sections_guarded_text (h : row.role = .text) (before : List Row) :
    sections (some (symbols, before)) (row :: rest) =
      sections (some (symbols, before ++ [row])) rest := by
  rw [sections.eq_def]
  simp only [h]

end

/-! ### Runs of lines -/

section
variable {defined : String → Bool} {body rest : List Row}

/-- Lines that are no directives are compiled where they stand, or not. -/
theorem survivors_append_text (hbody : ∀ row ∈ body, row.role = .text) (guards : List Bool) :
    survivors defined guards (body ++ rest) = (survivors defined guards rest).map
      ((if guards.all id then body else []) ++ ·) := by
  induction body with
  | nil => simp
  | cons row body ih =>
    rw [List.forall_mem_cons] at hbody
    rw [List.cons_append, survivors_text hbody.1, ih hbody.2, Option.map_map]
    cases guards.all id <;> rfl

theorem sections_append_text (hbody : ∀ row ∈ body, row.role = .text) :
    sections none (body ++ rest) = sections none rest := by
  induction body with
  | nil => rfl
  | cons row body ih =>
    rw [List.forall_mem_cons] at hbody
    rw [List.cons_append, sections_text hbody.1]
    exact ih hbody.2

theorem sections_append_guarded_text (hbody : ∀ row ∈ body, row.role = .text)
    (symbols : List String) (before : List Row) :
    sections (some (symbols, before)) (body ++ rest) =
      sections (some (symbols, before ++ body)) rest := by
  induction body generalizing before with
  | nil => simp
  | cons row body ih =>
    rw [List.forall_mem_cons] at hbody
    rw [List.cons_append, sections_guarded_text hbody.1, ih hbody.2]
    simp

end

/-! ### Guards -/

section
variable {defines : List String}

/-- The tokens of a condition are its symbols with the operator between them. -/
theorem conjunction?_tokens_condition (hne : defines ≠ [])
    (hdefines : ∀ define ∈ defines, IsWord define) :
    conjunction? (tokens (condition defines)) = some defines := by
  induction defines with
  | nil => exact absurd rfl hne
  | cons define defines ih =>
    rw [List.forall_mem_cons] at hdefines
    have hword := tokens_eq_word hdefines.1.ne_empty hdefines.1.parts
    cases defines with
    | nil =>
      have hcondition : condition [define] = define := String.intercalate_singleton
      rw [hcondition, hword, conjunction?]
    | cons next defines =>
      have hoperator : tokens " && " = [.mark '&', .mark '&'] := by decide
      rw [condition, intercalate_cons_cons, tokens_separated (by decide) (by decide) (by decide),
        hword, hoperator]
      change (conjunction? (tokens (condition (next :: defines)))).map _ = _
      rw [ih (by simp) hdefines.2]
      rfl

theorem role_opening (hne : defines ≠ []) (hdefines : ∀ define ∈ defines, IsWord define) :
    (rowOf ⟨0, "#if " ++ condition defines⟩).role = .opens defines := by
  have hif : tokens "#if " = [.mark '#', .word "if"] := by decide
  rw [rowOf, tokens_append_left (by decide), hif]
  simp [Row.role, directiveRole, conjunction?_tokens_condition hne hdefines]

theorem role_closing (defines : List String) :
    (rowOf ⟨0, "#endif /* " ++ condition defines ++ " */"⟩).role = .closes := by
  have hendif : tokens "#endif /* " = [.mark '#', .word "endif", .mark '/', .mark '*'] := by decide
  rw [rowOf, String.append_assoc, tokens_append_left (by decide), hendif]
  simp [Row.role, directiveRole]

/-- A line without a number sign is no directive. -/
theorem role_of_plain {l : Line} (h : Plain l.text) : (rowOf l).role = .text := by
  have hmark : CToken.mark '#' ∉ tokens l.text := fun hmem =>
    (h _ (mem_of_mark_mem_scan hmem)).2 rfl
  unfold Row.role
  split
  · next htokens =>
    rw [show tokens l.text = _ from htokens] at hmark
    exact absurd (List.mem_cons_self ..) hmark
  · next htokens =>
    rw [show tokens l.text = _ from htokens] at hmark
    exact absurd (List.mem_cons_self ..) hmark
  · rfl

end

/-! ### Guarded code -/

section
variable {defined : String → Bool} {defines : List String} {body : Code} {rest : List Row}
  {guards : List Bool}

theorem role_of_mem_plainCode (h : PlainCode body) : ∀ row ∈ body.map rowOf, row.role = .text := by
  intro row hrow
  obtain ⟨l, hl, rfl⟩ := List.mem_map.mp hrow
  exact role_of_plain (h l hl)

theorem guarded_nil (body : Code) : guarded [] body = body := rfl

theorem rows_guarded (hne : defines ≠ []) (body : Code) : (guarded defines body).map rowOf =
    rowOf ⟨0, "#if " ++ condition defines⟩ ::
      (body.map rowOf ++ [rowOf ⟨0, "#endif /* " ++ condition defines ++ " */"⟩]) := by
  rw [guarded, if_neg (by simpa using hne)]
  simp [Code.line]

/-- Guarded code is compiled where all of its symbols are defined. -/
theorem survivors_guarded (hdefines : ∀ define ∈ defines, IsWord define)
    (hbody : PlainCode body) (hguards : guards.all id = true) :
    survivors defined guards ((guarded defines body).map rowOf ++ rest) =
      (survivors defined guards rest).map
        ((if defines.all defined then body.map rowOf else []) ++ ·) := by
  -- Without symbols there is no guard at all, and an empty condition could not be read.
  by_cases hne : defines = []
  · subst hne
    rw [guarded_nil, survivors_append_text (role_of_mem_plainCode hbody), if_pos hguards]
    rfl
  · rw [rows_guarded hne, List.cons_append, survivors_opens (role_opening hne hdefines),
      List.append_assoc, survivors_append_text (role_of_mem_plainCode hbody),
      List.singleton_append, survivors_closes (role_closing defines), List.all_cons, hguards,
      Bool.and_true]
    rfl

/-- Guarded code is a section of its own if it has any symbols. -/
theorem sections_guarded (hdefines : ∀ define ∈ defines, IsWord define)
    (hbody : PlainCode body) :
    sections none ((guarded defines body).map rowOf ++ rest) = (sections none rest).map
      ((if defines = [] then [] else [(defines, body.map rowOf)]) ++ ·) := by
  by_cases hne : defines = []
  · subst hne
    rw [guarded_nil, sections_append_text (role_of_mem_plainCode hbody)]
    simp
  · rw [rows_guarded hne, List.cons_append, sections_opens (role_opening hne hdefines),
      List.append_assoc, sections_append_guarded_text (role_of_mem_plainCode hbody),
      List.singleton_append, sections_closes (role_closing defines), if_neg hne]
    rfl

end

section
variable {defined : String → Bool} {ss : List Signature} {body : Signature → Code}
  {rest : List Row} {guards : List Bool}

/-- What is compiled of the code about some signatures is the code about those of them whose
symbols are all defined. -/
theorem survivors_emitted (hss : ∀ s ∈ ss, s.Declarable) (hbody : ∀ s ∈ ss, PlainCode (body s))
    (hguards : guards.all id = true) :
    survivors defined guards ((ss.flatMap fun s => guarded s.defines (body s)).map rowOf ++ rest) =
      (survivors defined guards rest).map fun later =>
        ((ss.filter fun s => s.defines.all defined).flatMap fun s => (body s).map rowOf) ++
          later := by
  induction ss with
  | nil => simp
  | cons s ss ih =>
    rw [List.forall_mem_cons] at hss hbody
    rw [List.flatMap_cons, List.map_append, List.append_assoc,
      survivors_guarded hss.1.namedByWords.defines hbody.1 hguards, ih hss.2 hbody.2,
      Option.map_map]
    by_cases hdefined : s.defines.all defined = true
    · simp [hdefined, Function.comp_def]
    · simp [hdefined, Function.comp_def]

/-- The code about some signatures has a section for each of them that has symbols. -/
theorem sections_emitted (hss : ∀ s ∈ ss, s.Declarable) (hbody : ∀ s ∈ ss, PlainCode (body s)) :
    sections none ((ss.flatMap fun s => guarded s.defines (body s)).map rowOf ++ rest) =
      (sections none rest).map (((ss.filter fun s => s.defines ≠ []).map
        fun s => (s.defines, (body s).map rowOf)) ++ ·) := by
  induction ss with
  | nil => simp
  | cons s ss ih =>
    rw [List.forall_mem_cons] at hss hbody
    rw [List.flatMap_cons, List.map_append, List.append_assoc,
      sections_guarded hss.1.namedByWords.defines hbody.1, ih hss.2 hbody.2, Option.map_map]
    by_cases hne : s.defines = []
    · simp [hne, Function.comp_def]
    · simp [hne, Function.comp_def]

end

/-! ### Declared names -/

/-- The prototype of a signature as a line. -/
def declaration (s : Signature) : Code := Code.line ("PAS_API " ++ (Prototype.ofSignature s).render)

section
variable {mark : String} {s : Signature}

theorem after?_eq_some_iff {mark name rest : String} :
    after? mark name = some rest ↔ mark ++ rest = name := by
  rw [after?, Option.map_eq_some_iff]
  constructor
  · rintro ⟨cs, hcs, rfl⟩
    apply String.toList_injective
    rw [String.toList_append, String.toList_ofList]
    exact List.isPrefixOf?_eq_some_iff_append_eq.mp hcs
  · rintro rfl
    exact ⟨rest.toList, List.isPrefixOf?_eq_some_iff_append_eq.mpr String.toList_append.symm,
      String.ofList_toList⟩

theorem after?_append (mark name : String) : after? mark (mark ++ name) = some name :=
  after?_eq_some_iff.mpr rfl

/-- Nothing follows a mark in a name that starts differently. -/
theorem after?_append_eq_none (mark other : String) (hmark : ¬ mark.toList <+: other.toList)
    (hother : ¬ other.toList <+: mark.toList) (name : String) :
    after? mark (other ++ name) = none := by
  rw [Option.eq_none_iff_forall_ne_some]
  intro rest h
  have happend := congrArg String.toList (after?_eq_some_iff.mp h)
  rw [String.toList_append, String.toList_append] at happend
  exact (List.prefix_or_prefix_of_prefix ⟨_, happend⟩ (List.prefix_append ..)).elim hmark hother

theorem declared_append (lines later : List Row) :
    declared mark (lines ++ later) = declared mark lines ++ declared mark later :=
  List.filterMap_append

theorem declared_line (text : String) :
    declared mark ((Code.line text).map rowOf) =
      ((declaredWord? (tokens text)).bind (after? mark)).toList := by
  have hrow : (rowOf ⟨0, text⟩).declared? mark = (declaredWord? (tokens text)).bind (after? mark) :=
    rfl
  rw [declared, Code.line, List.map_singleton, List.filterMap_cons, hrow]
  cases (declaredWord? (tokens text)).bind (after? mark) <;> rfl

theorem declared_indented (c : Code) : declared mark ((Code.indented c).map rowOf) = [] := by
  rw [declared, List.filterMap_eq_nil_iff]
  intro row hrow
  obtain ⟨l, hl, rfl⟩ := List.mem_map.mp hrow
  obtain ⟨inner, _, rfl⟩ := List.mem_map.mp hl
  rfl

theorem declared_block (c : Code) : declared mark ((Code.block c).map rowOf) = [] := by
  simp only [Code.block, List.map_append, declared_append, declared_indented, declared_line]
  rfl

theorem declaredWord?_words (words : List String) (name : String) (rest : List CToken) :
    declaredWord? (words.map .word ++ .word name :: .mark '(' :: rest) = some name := by
  induction words with
  | nil => rfl
  | cons word words ih =>
    cases words with
    | nil => rfl
    | cons next words => exact ih

theorem tokens_declaration (h : OneWord s.name) :
    tokens ("PAS_API " ++ (Prototype.ofSignature s).render) =
      .word "PAS_API" :: ((nativeResultWords s).map .word ++
        .word (nativeName s.name) :: .mark '(' ::
          ([CToken.mark ','].intercalate ((Prototype.ofSignature s).parameters.map
            parameterTokens) ++ [.mark ')', .mark ';'])) := by
  have hmark : tokens "PAS_API " = [.word "PAS_API"] := (tokens_ofList _).trans (by decide)
  rw [tokens_append_left (by decide), hmark, tokens_prototype h]
  rfl

/-- The prototype of a signature declares its native function. -/
theorem declaredWord?_prototype (h : OneWord s.name) :
    declaredWord? (tokens ("PAS_API " ++ (Prototype.ofSignature s).render)) =
      some (nativeName s.name) := by
  rw [tokens_declaration h]
  exact declaredWord?_words ("PAS_API" :: nativeResultWords s) _ _

theorem declaredWord?_thunk (h : OneWord s.name) :
    declaredWord? (tokens ("static bool " ++ Thunk.functionName s.name ++
      "(PIZLONATED_SIGNATURE)")) = some (Thunk.functionName s.name) := by
  have hmark : tokens "static bool " = ["static", "bool"].map .word :=
    (tokens_ofList _).trans (by decide)
  have hopen : tokens "(PIZLONATED_SIGNATURE)" =
      [.mark '(', .word "PIZLONATED_SIGNATURE", .mark ')'] := (tokens_ofList _).trans (by decide)
  rw [tokens_append_right (by decide), tokens_append_left (by decide), hmark, hopen,
    tokens_functionName h, List.append_assoc]
  exact declaredWord?_words _ _ _

theorem declaredWord?_functionObject (h : OneWord s.name) :
    declaredWord? (tokens ("static filc_object " ++ objectName s.name ++ " = \x7b")) =
      some (objectName s.name) := by
  have hmark : tokens "static filc_object " = ["static", "filc_object"].map .word :=
    (tokens_ofList _).trans (by decide)
  have hopen : tokens " = \x7b" = [.mark '=', .mark '\x7b'] := by decide
  rw [tokens_append_right (by decide), tokens_append_left (by decide), hmark, hopen,
    tokens_objectName h]
  rfl

theorem declaredWord?_getter (h : OneWord s.name) :
    declaredWord? (tokens ("filc_ptr pizlonated_" ++ s.name ++
      "(filc_global_initialization_context* context)")) = some ("pizlonated_" ++ s.name) := by
  have hmark : tokens "filc_ptr " = ["filc_ptr"].map .word := (tokens_ofList _).trans (by decide)
  have hopen : tokens "(filc_global_initialization_context* context)" =
      [.mark '(', .word "filc_global_initialization_context", .mark '*', .word "context",
        .mark ')'] := (tokens_ofList _).trans (by decide)
  have hname : tokens ("pizlonated_" ++ s.name) = [.word ("pizlonated_" ++ s.name)] :=
    tokens_prefixed (by decide) (oneWord_ofList _ (by decide)) h
  have hsplit : "filc_ptr pizlonated_" ++ s.name = "filc_ptr " ++ ("pizlonated_" ++ s.name) := by
    rw [← String.append_assoc]
    rfl
  rw [tokens_append_right (by decide), hsplit, tokens_append_left (by decide), hmark, hopen, hname,
    List.append_assoc]
  exact declaredWord?_words _ _ _

/-- At the top level, the code about a signature declares its thunk, its object and its getter. -/
theorem declared_definitions (h : OneWord s.name) :
    declared mark ((definitions s).map rowOf) =
      [Thunk.functionName s.name, objectName s.name, "pizlonated_" ++ s.name].filterMap
        (after? mark) := by
  have hname : (Thunk.ofSignature s).name = s.name := rfl
  have hend : declaredWord? (tokens "\x7d;") = none := by decide
  simp only [definitions, Thunk.code, functionObject, getter, List.map_append, declared_append,
    declared_block, declared_indented, declared_line, hname, hend, declaredWord?_thunk h,
    declaredWord?_functionObject h, declaredWord?_getter h, Option.bind_some, Option.bind_none]
  rw [List.filterMap_cons, List.filterMap_cons, List.filterMap_cons, List.filterMap_nil]
  cases after? mark (Thunk.functionName s.name) <;> cases after? mark (objectName s.name) <;>
    cases after? mark ("pizlonated_" ++ s.name) <;> rfl

theorem declared_declaration (h : OneWord s.name) :
    declared "filc_native_" ((declaration s).map rowOf) = [s.name] := by
  rw [declaration, declared_line, declaredWord?_prototype h, Option.bind_some, nativeName,
    after?_append]
  rfl

/-- Each kind of definition is declared once. -/
theorem declared_definitions_eq (h : OneWord s.name)
    (hmark : mark ∈ ["native_thunk_", "function_object_", "pizlonated_"]) :
    declared mark ((definitions s).map rowOf) = [s.name] := by
  -- The three names start differently, so that each mark is found in one of them.
  rw [declared_definitions h]
  unfold Thunk.functionName objectName
  simp only [List.mem_cons, List.not_mem_nil, or_false] at hmark
  rcases hmark with rfl | rfl | rfl
  · simp [after?_append,
      after?_append_eq_none "native_thunk_" "function_object_" (by simp) (by simp),
      after?_append_eq_none "native_thunk_" "pizlonated_" (by simp) (by simp)]
  · simp [after?_append,
      after?_append_eq_none "function_object_" "native_thunk_" (by simp) (by simp),
      after?_append_eq_none "function_object_" "pizlonated_" (by simp) (by simp)]
  · simp [after?_append,
      after?_append_eq_none "pizlonated_" "native_thunk_" (by simp) (by simp),
      after?_append_eq_none "pizlonated_" "function_object_" (by simp) (by simp)]

end

/-! ### The header and the source -/

section
variable {s : Signature} {ss : List Signature}

theorem plainCode_declaration (h : OneWord s.name) : PlainCode (declaration s) :=
  plainCode_line.mpr (plain_append.mpr ⟨plain_ofList _ (by decide), plain_prototype h⟩)

theorem legible_declaration (h : OneWord s.name) : ∀ l ∈ declaration s, Legible l :=
  (plainCode_line.mp (plainCode_declaration h)).legible_line (by simp)

theorem legible_guarded {defines : List String} {body : Code}
    (hdefines : ∀ define ∈ defines, IsWord define) (hbody : ∀ l ∈ body, Legible l) :
    ∀ l ∈ guarded defines body, Legible l := by
  have hcondition : Plain (condition defines) := plain_intercalate (plain_ofList _ (by decide))
    fun define hdefine => OneWord.plain (hdefines define hdefine).parts
  have hnewline : '\n' ∉ (condition defines).toList := fun hmem => (hcondition _ hmem).1 rfl
  unfold guarded
  split
  · exact hbody
  · simp only [List.forall_mem_append]
    exact ⟨⟨legible_line (by simp [hnewline]) (by simp), hbody⟩,
      legible_line (by simp [hnewline]) (by simp)⟩

theorem legible_emitted {body : Signature → Code} (hss : ∀ s ∈ ss, s.NamedByWords)
    (hbody : ∀ s ∈ ss, ∀ l ∈ body s, Legible l) :
    ∀ l ∈ ss.flatMap fun s => guarded s.defines (body s), Legible l := by
  intro l hl
  obtain ⟨s, hs, hl⟩ := List.mem_flatMap.mp hl
  exact legible_guarded (hss s hs).defines (hbody s hs) l hl

/-- A line that is no guard, declares nothing and does not start with a word. -/
structure Row.IsSilent (row : Row) : Prop where
  role : row.role = .text
  declares : declaredWord? row.tokens = none
  start : ∀ t ∈ row.tokens.head?, t.word? = none

theorem declared_of_isSilent {mark : String} {lines : List Row} (h : ∀ row ∈ lines, row.IsSilent) :
    declared mark lines = [] := by
  rw [declared, List.filterMap_eq_nil_iff]
  intro row hrow
  rw [Row.declared?, (h row hrow).declares, Option.bind_none, ite_self]

theorem isSilent_of_tokens {text : String} {ts : List CToken} (h : tokens text = ts)
    (hsilent : (Row.mk false ts).IsSilent) : (rowOf ⟨0, text⟩).IsSilent := by
  rw [rowOf, h]
  exact hsilent

theorem role_of_tokens {text : String} {ts : List CToken} (h : tokens text = ts) :
    (rowOf ⟨0, text⟩).role = Row.role ⟨false, ts⟩ := by
  rw [rowOf, h]
  rfl

theorem isSilent_banner : (rowOf ⟨0, banner⟩).IsSilent :=
  isSilent_of_tokens (tokens_ofList _) ⟨by decide, by decide, by decide⟩

/-- The lines of the header, and what those around the prototypes are. -/
theorem rows_header_of_words (hss : ∀ s ∈ ss, s.NamedByWords) : ∃ first opening front closing,
    rows (header ss) = first :: opening ::
      (front ++ ((ss.flatMap fun s => guarded s.defines (declaration s)).map rowOf ++ [closing])) ∧
    first.IsSilent ∧ opening.role = .opens [] ∧ (∀ row ∈ front, row.IsSilent) ∧
    closing.role = .closes := by
  have hbanner : Plain banner := plain_ofList _ (by decide)
  have hlegible : ∀ l ∈ headerCode ss, Legible l := by
    simp only [headerCode, List.forall_mem_append]
    refine ⟨⟨⟨⟨⟨hbanner.legible_line ?_, legible_line ?_ ?_⟩, legible_line ?_ ?_⟩,
      legible_line ?_ ?_⟩,
      legible_emitted hss fun s hs => legible_declaration (hss s hs).name.parts⟩,
      legible_line ?_ ?_⟩
    all_goals simp [banner]
  refine ⟨rowOf ⟨0, banner⟩, rowOf ⟨0, "#ifndef FILC_NATIVE_H"⟩,
    [rowOf ⟨0, "#define FILC_NATIVE_H"⟩, rowOf ⟨0, "#include \"filc_runtime.h\""⟩],
    rowOf ⟨0, "#endif /* FILC_NATIVE_H */"⟩, ?_, isSilent_banner, ?_, ?_, ?_⟩
  · rw [header, rows_render hlegible]
    simp [headerCode, Code.line, prototypes, declaration]
  · exact (role_of_tokens (tokens_ofList _)).trans (by decide)
  · refine List.forall_mem_cons.mpr ⟨?_, List.forall_mem_singleton.mpr ?_⟩ <;>
      exact isSilent_of_tokens (tokens_ofList _) ⟨by decide, by decide, by decide⟩
  · exact (role_of_tokens (tokens_ofList _)).trans (by decide)

theorem rows_header (hss : ∀ s ∈ ss, s.Declarable) : ∃ first opening front closing,
    rows (header ss) = first :: opening ::
      (front ++ ((ss.flatMap fun s => guarded s.defines (declaration s)).map rowOf ++ [closing])) ∧
    first.IsSilent ∧ opening.role = .opens [] ∧ (∀ row ∈ front, row.IsSilent) ∧
    closing.role = .closes :=
  rows_header_of_words fun s hs => (hss s hs).namedByWords

/-- The lines of the source, and what those before the definitions are. -/
theorem rows_source (hss : ∀ s ∈ ss, s.Declarable) : ∃ front,
    rows (source ss) =
      front ++ (ss.flatMap fun s => guarded s.defines (definitions s)).map rowOf ∧
    ∀ row ∈ front, row.IsSilent := by
  have hbanner : Plain banner := plain_ofList _ (by decide)
  have hlegible : ∀ l ∈ sourceCode ss, Legible l := by
    simp only [sourceCode, List.forall_mem_append]
    refine ⟨⟨hbanner.legible_line ?_, legible_line ?_ ?_⟩,
      legible_emitted (fun s hs => (hss s hs).namedByWords)
        fun s hs => legible_definitions (hss s hs).name.parts⟩
    all_goals simp [banner]
  refine ⟨[rowOf ⟨0, banner⟩, rowOf ⟨0, "#include \"filc_native.h\""⟩], ?_,
    List.forall_mem_cons.mpr ⟨isSilent_banner, List.forall_mem_singleton.mpr
      (isSilent_of_tokens (tokens_ofList _) ⟨by decide, by decide, by decide⟩)⟩⟩
  rw [source, rows_render hlegible]
  simp [sourceCode, Code.line, implementations, definitions]

/-- What is compiled of the header. -/
theorem survivors_header (hss : ∀ s ∈ ss, s.Declarable) (defined : String → Bool) : ∃ front,
    survivors defined [] (rows (header ss)) = some (front ++
      (ss.filter fun s => s.defines.all defined).flatMap fun s => (declaration s).map rowOf) ∧
    ∀ row ∈ front, row.IsSilent := by
  obtain ⟨first, opening, front, closing, hrows, hfirst, hopening, hfront, hclosing⟩ :=
    rows_header hss
  have hend : survivors defined [] [] = some [] := rfl
  refine ⟨first :: front, ?_, List.forall_mem_cons.mpr ⟨hfirst, hfront⟩⟩
  rw [hrows, survivors_text hfirst.role, survivors_opens hopening,
    survivors_append_text fun row hrow => (hfront row hrow).role,
    survivors_emitted hss (fun s hs => plainCode_declaration (hss s hs).name.parts) rfl,
    survivors_closes hclosing, hend]
  exact congrArg (fun lines => some (first :: (front ++ lines))) (List.append_nil _)

/-- What is compiled of the source. -/
theorem survivors_source (hss : ∀ s ∈ ss, s.Declarable) (defined : String → Bool) : ∃ front,
    survivors defined [] (rows (source ss)) = some (front ++
      (ss.filter fun s => s.defines.all defined).flatMap fun s => (definitions s).map rowOf) ∧
    ∀ row ∈ front, row.IsSilent := by
  obtain ⟨front, hrows, hfront⟩ := rows_source hss
  have hend : survivors defined [] [] = some [] := rfl
  refine ⟨front, ?_, hfront⟩
  rw [hrows, survivors_append_text fun row hrow => (hfront row hrow).role,
    ← List.append_nil (List.map rowOf _),
    survivors_emitted hss (fun s hs => plainCode_definitions (hss s hs).name.parts) rfl, hend]
  exact congrArg (fun lines => some (front ++ lines)) (List.append_nil _)

end

/-! ### Agreement -/

/-- The names behind `mark` that are declared where these symbols are defined, if guards are
paired. -/
def compiled (defined : String → Bool) (mark : String) (lines : List Row) : Option (List String) :=
  (survivors defined [] lines).map (declared mark)

/-- The condition of each guard with the names behind `mark` that it is about, if guards are paired
and none stands inside of another. -/
def guardedNames (mark : String) (lines : List Row) : Option (List (List String × List String)) :=
  (sections none lines).map fun found =>
    found.map fun guarded => (guarded.1, declared mark guarded.2)

section
variable {table mark : String} {ss : List Signature} {body : Signature → Code}

theorem declared_flatMap (hbody : ∀ s ∈ ss, declared mark ((body s).map rowOf) = [s.name]) :
    declared mark (ss.flatMap fun s => (body s).map rowOf) = ss.map Signature.name := by
  induction ss with
  | nil => rfl
  | cons s ss ih =>
    rw [List.forall_mem_cons] at hbody
    rw [List.flatMap_cons, declared_append, hbody.1, ih hbody.2]
    rfl

/-- The lines about some signatures, with lines before and behind them that declare nothing. -/
theorem guardedNames_emitted {front : List Row} (hss : ∀ s ∈ ss, s.Declarable)
    (hbody : ∀ s ∈ ss, PlainCode (body s))
    (hdeclared : ∀ s ∈ ss, declared mark ((body s).map rowOf) = [s.name])
    (hfront : ∀ row ∈ front, row.IsSilent) :
    guardedNames mark (front ++ (ss.flatMap fun s => guarded s.defines (body s)).map rowOf) =
      some ((ss.filter fun s => s.defines ≠ []).map fun s => (s.defines, [s.name])) := by
  have hend : sections none [] = some [] := rfl
  rw [guardedNames, sections_append_text fun row hrow => (hfront row hrow).role,
    ← List.append_nil (List.map rowOf _), sections_emitted hss hbody, hend, Option.map_some,
    Option.map_some, List.append_nil, List.map_map]
  refine congrArg some (List.map_congr_left fun s hs => ?_)
  rw [Function.comp_apply, hdeclared s (List.mem_of_mem_filter hs)]

/-- The compiled lines about some signatures, behind lines that declare nothing. -/
theorem compiled_of_survivors {defined : String → Bool} {lines front : List Row}
    (h : survivors defined [] lines = some (front ++ ss.flatMap fun s => (body s).map rowOf))
    (hfront : ∀ row ∈ front, row.IsSilent)
    (hdeclared : ∀ s ∈ ss, declared mark ((body s).map rowOf) = [s.name]) :
    compiled defined mark lines = some (ss.map Signature.name) := by
  rw [compiled, h, Option.map_some, declared_append, declared_of_isSilent hfront,
    List.nil_append, declared_flatMap hdeclared]

theorem compiled_header (hss : ∀ s ∈ ss, s.Declarable) (defined : String → Bool) :
    compiled defined "filc_native_" (rows (header ss)) =
      some ((ss.filter fun s => s.defines.all defined).map Signature.name) := by
  obtain ⟨front, hsurvivors, hfront⟩ := survivors_header hss defined
  exact compiled_of_survivors hsurvivors hfront fun s hs =>
    declared_declaration (hss s (List.mem_of_mem_filter hs)).name.parts

theorem compiled_source (hss : ∀ s ∈ ss, s.Declarable) (defined : String → Bool)
    (hmark : mark ∈ ["native_thunk_", "function_object_", "pizlonated_"]) :
    compiled defined mark (rows (source ss)) =
      some ((ss.filter fun s => s.defines.all defined).map Signature.name) := by
  obtain ⟨front, hsurvivors, hfront⟩ := survivors_source hss defined
  exact compiled_of_survivors hsurvivors hfront fun s hs =>
    declared_definitions_eq (hss s (List.mem_of_mem_filter hs)).name.parts hmark

/-- Whatever symbols are defined, the header declares the functions that the source defines: those
of the signatures whose symbols are all defined. What is compiled of the two, besides lines that
declare nothing, are the whole declarations and the whole definitions of these functions. Each guard
but the one around the header is about one signature. -/
theorem guards_agree (h : Table.parse table = .ok ss) :
    (∀ defined : String → Bool,
      (∃ front, survivors defined [] (rows (header ss)) = some (front ++
        (ss.filter fun s => s.defines.all defined).flatMap fun s => (declaration s).map rowOf) ∧
        ∀ row ∈ front, row.IsSilent) ∧
      (∃ front, survivors defined [] (rows (source ss)) = some (front ++
        (ss.filter fun s => s.defines.all defined).flatMap fun s => (definitions s).map rowOf) ∧
        ∀ row ∈ front, row.IsSilent) ∧
      compiled defined "filc_native_" (rows (header ss)) =
        some ((ss.filter fun s => s.defines.all defined).map Signature.name) ∧
      ∀ mark ∈ ["native_thunk_", "function_object_", "pizlonated_"],
        compiled defined mark (rows (source ss)) =
          some ((ss.filter fun s => s.defines.all defined).map Signature.name)) ∧
    (∃ first opening inside closing,
      rows (header ss) = first :: opening :: (inside ++ [closing]) ∧
      first.role = .text ∧ opening.role = .opens [] ∧ closing.role = .closes ∧
      guardedNames "filc_native_" inside =
        some ((ss.filter fun s => s.defines ≠ []).map fun s => (s.defines, [s.name]))) ∧
    ∀ mark ∈ ["native_thunk_", "function_object_", "pizlonated_"],
      guardedNames mark (rows (source ss)) =
        some ((ss.filter fun s => s.defines ≠ []).map fun s => (s.defines, [s.name])) := by
  have hss : ∀ s ∈ ss, s.Declarable := declarable_of_parse h
  refine ⟨fun defined => ⟨survivors_header hss defined, survivors_source hss defined,
    compiled_header hss defined, fun mark hmark => compiled_source hss defined hmark⟩, ?_,
    fun mark hmark => ?_⟩
  · obtain ⟨first, opening, front, closing, hrows, hfirst, hopening, hfront, hclosing⟩ :=
      rows_header hss
    refine ⟨first, opening, _, closing, ?_, hfirst.role, hopening, hclosing,
      guardedNames_emitted hss (fun s hs => plainCode_declaration (hss s hs).name.parts)
        (fun s hs => declared_declaration (hss s hs).name.parts) hfront⟩
    rw [hrows, List.append_assoc]
  · obtain ⟨front, hrows, hfront⟩ := rows_source hss
    rw [hrows]
    exact guardedNames_emitted hss (fun s hs => plainCode_definitions (hss s hs).name.parts)
      (fun s hs => declared_definitions_eq (hss s hs).name.parts hmark) hfront

/-- A function in two blocks, of whose symbols one is defined, and a function in none. -/
theorem guards_agree_nested_blocks :
    Table.parse "if A \x7b if B \x7b void f(); \x7d \x7d int g();" =
      .ok [⟨"f", .void, false, [], ["A", "B"]⟩, ⟨"g", .value .int, false, [], []⟩] ∧
    compiled (· = "A") "filc_native_" (rows (header
      [⟨"f", .void, false, [], ["A", "B"]⟩, ⟨"g", .value .int, false, [], []⟩])) = some ["g"] ∧
    guardedNames "native_thunk_" (rows (source
      [⟨"f", .void, false, [], ["A", "B"]⟩, ⟨"g", .value .int, false, [], []⟩])) =
        some [(["A", "B"], ["f"])] := by
  have h : Table.parse "if A \x7b if B \x7b void f(); \x7d \x7d int g();" =
      .ok [⟨"f", .void, false, [], ["A", "B"]⟩, ⟨"g", .value .int, false, [], []⟩] := by
    with_unfolding_all rfl
  obtain ⟨hcompiled, _, hguarded⟩ := guards_agree h
  obtain ⟨_, _, hheader, _⟩ := hcompiled (· = "A")
  exact ⟨h, hheader, hguarded "native_thunk_" (by simp)⟩

end

end CapFixture.Forwarder
