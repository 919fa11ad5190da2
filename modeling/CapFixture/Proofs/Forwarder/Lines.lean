import CapFixture.Proofs.Forwarder.Reading
import CapFixture.Proofs.Text.Decimal

/-!
# The lines of forwarders

Whatever the names in a table are, the generated code has the lines that it is put together from:
no line has a newline in it, and no line but a directive has a number sign.

## Main definitions

- `OneWord` — texts that are a word or a part of one
- `Plain` — texts that keep a line in one piece and start no directive
-/

namespace CapFixture.Forwarder

open Table

/-! ### Words -/

/-- Has name characters only. -/
def OneWord (s : String) : Prop := ∀ c ∈ s.toList, NamePart c

/-- A literal is what its characters make. -/
theorem oneWord_ofList (cs : List Char) (h : cs.all isNameChar = true) : OneWord (.ofList cs) := by
  rw [OneWord, String.toList_ofList]
  exact forall_namePart h

theorem oneWord_append {s t : String} : OneWord (s ++ t) ↔ OneWord s ∧ OneWord t := by
  simp only [OneWord, String.toList_append, List.forall_mem_append]

theorem oneWord_toString (n : Nat) : OneWord (toString n) := by
  intro c hc
  have hdigit : c.isDigit = true := Text.isDigit_of_mem_toString hc
  rw [← isNameChar_iff]
  simp [isNameChar, Char.isAlphanum, hdigit]

/-! ### Texts inside of a line -/

/-- Neither ends a line nor starts a directive. -/
def Plain (s : String) : Prop := ∀ c ∈ s.toList, c ≠ '\n' ∧ c ≠ '#'

theorem plain_ofList (cs : List Char) (h : cs.all (fun c => c != '\n' && c != '#') = true) :
    Plain (.ofList cs) := by
  rw [Plain, String.toList_ofList]
  simpa using h

theorem OneWord.plain {s : String} (h : OneWord s) : Plain s := fun c hc =>
  ⟨(h c hc).ne_of_lt (by decide), (h c hc).ne_of_lt (by decide)⟩

theorem plain_append {s t : String} : Plain (s ++ t) ↔ Plain s ∧ Plain t := by
  simp only [Plain, String.toList_append, List.forall_mem_append]

/-- Lists with a separator between them have their elements and those of the separator. -/
theorem forall_mem_intercalate {α : Type} {P : α → Prop} {separator : List α}
    {parts : List (List α)} (hs : ∀ a ∈ separator, P a) (hp : ∀ part ∈ parts, ∀ a ∈ part, P a) :
    ∀ a ∈ separator.intercalate parts, P a := by
  induction parts with
  | nil => simp
  | cons part parts ih =>
    rw [List.forall_mem_cons] at hp
    cases parts with
    | nil => simpa using hp.1
    | cons next parts =>
      have hrest := ih hp.2
      rw [List.intercalate_cons_cons]
      simp only [List.forall_mem_append]
      exact ⟨⟨hp.1, hs⟩, hrest⟩

theorem forall_mem_toList_intercalate {P : Char → Prop} {separator : String} {texts : List String}
    (hs : ∀ c ∈ separator.toList, P c) (ht : ∀ text ∈ texts, ∀ c ∈ text.toList, P c) :
    ∀ c ∈ (separator.intercalate texts).toList, P c := by
  rw [String.toList_intercalate]
  exact forall_mem_intercalate hs (List.forall_mem_map.mpr ht)

theorem plain_intercalate {separator : String} {texts : List String} (hs : Plain separator)
    (ht : ∀ text ∈ texts, Plain text) : Plain (separator.intercalate texts) :=
  forall_mem_toList_intercalate hs ht

theorem plain_typeName (t : ValueType) : Plain t.name := by
  cases t <;> exact plain_ofList _ (by decide)

theorem oneWord_helperName (t : ValueType) : OneWord t.helperName := by
  by_cases h : t = .filcPtr
  · subst h
    exact oneWord_ofList _ (by decide)
  · rw [ValueType.helperName_eq h]
    exact forall_mem_toList_intercalate (oneWord_ofList _ (by decide))
      fun word hword => (t.isIdentifier_words word hword).parts

theorem oneWord_cursorGetter (t : ValueType) : OneWord (Thunk.cursorGetter t) := by
  unfold Thunk.cursorGetter
  split
  · exact oneWord_ofList _ (by decide)
  · exact oneWord_append.mpr ⟨oneWord_ofList _ (by decide), oneWord_helperName t⟩

theorem oneWord_argumentName (index : Nat) : OneWord (argumentName index) :=
  oneWord_append.mpr ⟨oneWord_ofList _ (by decide), oneWord_toString index⟩

theorem plain_nativeResult (s : Signature) : Plain s.nativeResult := by
  obtain ⟨name, result, throws, args, defines⟩ := s
  cases throws with
  | false =>
    cases result with
    | void => exact plain_ofList _ (by decide)
    | value type => exact plain_typeName type
  | true =>
    have hmark : Plain "filc_exception_and_" := plain_ofList _ (by decide)
    have hvoid : Plain "void" := plain_ofList _ (by decide)
    cases result with
    | void => exact plain_append.mpr ⟨hmark, hvoid⟩
    | value type => exact plain_append.mpr ⟨hmark, (oneWord_helperName type).plain⟩

/-! ### Tokens -/

theorem intercalate_cons_cons (separator first second : String) (rest : List String) :
    separator.intercalate (first :: second :: rest) =
      first ++ (separator ++ separator.intercalate (second :: rest)) := by
  apply String.toList_injective
  simp [String.toList_intercalate]

/-- A separator of marks and blanks keeps the texts around it apart. -/
theorem tokens_separated {separator : String} (hne : separator ≠ "")
    (hhead : isApart separator.toList.head? = true)
    (hlast : isApart separator.toList.getLast? = true) (s t : String) :
    tokens (s ++ (separator ++ t)) = tokens s ++ (tokens separator ++ tokens t) := by
  have hhead' : isApart (separator ++ t).toList.head? = true := by
    obtain ⟨c, cs, hc⟩ := List.exists_cons_of_ne_nil (mt String.toList_eq_nil_iff.mp hne)
    rw [hc] at hhead
    rwa [String.toList_append, hc]
  rw [tokens_append_right hhead', tokens_append_left hlast]

theorem tokens_words {words : List String} (h : ∀ word ∈ words, IsIdentifier word) :
    tokens (" ".intercalate words) = words.map .word := by
  induction words with
  | nil => decide
  | cons word words ih =>
    rw [List.forall_mem_cons] at h
    have hword := tokens_eq_word h.1.ne_empty h.1.parts
    cases words with
    | nil => rw [String.intercalate_singleton, hword]; rfl
    | cons next words =>
      rw [intercalate_cons_cons, tokens_separated (by decide) (by decide) (by decide), hword,
        ih h.2]
      rfl

theorem tokens_typeName (t : ValueType) : tokens t.name = t.words.map .word := by
  rw [← t.intercalate_words]
  exact tokens_words t.isIdentifier_words

/-- The words of what a native function returns. -/
def nativeResultWords (s : Signature) : List String :=
  if s.throws then ["filc_exception_and_" ++ s.result.helperName] else s.result.words

theorem tokens_nativeResult (s : Signature) :
    tokens s.nativeResult = (nativeResultWords s).map .word := by
  unfold Signature.nativeResult nativeResultWords
  split
  · have hhelper : OneWord ("filc_exception_and_" ++ s.result.helperName) := by
      refine oneWord_append.mpr ⟨oneWord_ofList _ (by decide), ?_⟩
      cases s.result with
      | void => exact oneWord_ofList _ (by decide)
      | value type => exact oneWord_helperName type
    refine tokens_eq_word ?_ hhelper
    intro h
    have hlength := congrArg String.length h
    simp at hlength
  · rw [← s.result.intercalate_words]
    exact tokens_words s.result.isIdentifier_words

/-- The tokens of a literal are those of its characters. -/
theorem tokens_ofList (cs : List Char) : tokens (.ofList cs) = scan [] cs := by
  rw [tokens, String.toList_ofList]

theorem tokens_toString (n : Nat) : tokens (toString n) = [.word (toString n)] := by
  refine tokens_eq_word ?_ (oneWord_toString n)
  intro h
  simpa using congrArg String.toList h

theorem tokens_commas (texts : List String) :
    tokens (", ".intercalate texts) = [CToken.mark ','].intercalate (texts.map tokens) := by
  induction texts with
  | nil => decide
  | cons text texts ih =>
    cases texts with
    | nil => simp [String.intercalate_singleton]
    | cons next texts =>
      have hcomma : tokens ", " = [.mark ','] := by decide
      rw [intercalate_cons_cons, tokens_separated (by decide) (by decide) (by decide), ih, hcomma]
      simp [List.intercalate_cons_cons]

theorem tokens_prefixed {mark name : String} (hne : mark ≠ "") (hmark : OneWord mark)
    (h : OneWord name) : tokens (mark ++ name) = [.word (mark ++ name)] :=
  tokens_eq_word (by simp [hne]) (oneWord_append.mpr ⟨hmark, h⟩)

section
variable {s : Signature} {name : String}

theorem tokens_nativeName (h : OneWord name) :
    tokens (nativeName name) = [.word (nativeName name)] :=
  tokens_prefixed (by decide) (oneWord_ofList _ (by decide)) h

theorem tokens_functionName (h : OneWord name) :
    tokens (Thunk.functionName name) = [.word (Thunk.functionName name)] :=
  tokens_prefixed (by decide) (oneWord_ofList _ (by decide)) h

theorem tokens_objectName (h : OneWord name) :
    tokens (objectName name) = [.word (objectName name)] :=
  tokens_prefixed (by decide) (oneWord_ofList _ (by decide)) h

theorem tokens_argumentName (index : Nat) :
    tokens (argumentName index) = [.word (argumentName index)] :=
  tokens_prefixed (by decide) (oneWord_ofList _ (by decide)) (oneWord_toString index)

/-- A parameter as its type and its name. -/
def parameterTokens (q : Parameter) : List CToken := tokens q.type ++ tokens q.name

theorem tokens_parameter (q : Parameter) :
    tokens (q.type ++ " " ++ q.name) = parameterTokens q := by
  rw [String.append_assoc, tokens_separated (by decide) (by decide) (by decide)]
  rfl

theorem tokens_prototype (h : OneWord s.name) : tokens (Prototype.ofSignature s).render =
    (nativeResultWords s).map .word ++ .word (nativeName s.name) :: .mark '(' ::
      ([CToken.mark ','].intercalate ((Prototype.ofSignature s).parameters.map parameterTokens) ++
        [.mark ')', .mark ';']) := by
  have hblank : tokens " " = [] := by decide
  have hopen : tokens "(" = [.mark '('] := by decide
  have hclose : tokens ");" = [.mark ')', .mark ';'] := by decide
  have hparameters : ((Prototype.ofSignature s).parameters.map
      fun q => q.type ++ " " ++ q.name).map tokens =
        (Prototype.ofSignature s).parameters.map parameterTokens := by
    rw [List.map_map]
    exact List.map_congr_left fun q _ => tokens_parameter q
  unfold Prototype.render
  rw [tokens_append_right (by decide), hclose, String.append_assoc, String.append_assoc,
    String.append_assoc, tokens_separated (by decide) (by decide) (by decide), hblank]
  change _ ++ ([] ++ tokens (nativeName s.name ++ ("(" ++ _))) ++ _ = _
  rw [tokens_separated (by decide) (by decide) (by decide), tokens_nativeName h, tokens_commas,
    hparameters, hopen]
  change tokens s.nativeResult ++ _ ++ _ = _
  rw [tokens_nativeResult]
  simp

end

/-! ### Code -/

/-- Code of plain lines. -/
def PlainCode (c : Code) : Prop := ∀ l ∈ c, Plain l.text

theorem plainCode_append {c d : Code} : PlainCode (c ++ d) ↔ PlainCode c ∧ PlainCode d :=
  List.forall_mem_append

theorem plainCode_line {s : String} : PlainCode (Code.line s) ↔ Plain s :=
  List.forall_mem_singleton

theorem plainCode_indented {c : Code} : PlainCode (Code.indented c) ↔ PlainCode c := by
  simp [PlainCode, Code.indented]

theorem plainCode_block {c : Code} : PlainCode (Code.block c) ↔ PlainCode c := by
  have hbraces : Plain "\x7b" ∧ Plain "\x7d" :=
    ⟨plain_ofList _ (by decide), plain_ofList _ (by decide)⟩
  simp only [Code.block, plainCode_append, plainCode_line, plainCode_indented, hbraces, true_and,
    and_true]

section
variable {s : Signature} {name : String}

theorem oneWord_nativeName (h : OneWord name) : OneWord (nativeName name) :=
  oneWord_append.mpr ⟨oneWord_ofList _ (by decide), h⟩

theorem oneWord_functionName (h : OneWord name) : OneWord (Thunk.functionName name) :=
  oneWord_append.mpr ⟨oneWord_ofList _ (by decide), h⟩

theorem oneWord_objectName (h : OneWord name) : OneWord (objectName name) :=
  oneWord_append.mpr ⟨oneWord_ofList _ (by decide), h⟩

theorem plain_prototype (h : OneWord s.name) : Plain (Prototype.ofSignature s).render := by
  have hblank : Plain " " := plain_ofList _ (by decide)
  have hparameter : ∀ q : Parameter, Plain q.type → Plain q.name →
      Plain (q.type ++ " " ++ q.name) := fun q htype hname =>
    plain_append.mpr ⟨plain_append.mpr ⟨htype, hblank⟩, hname⟩
  have hparameters : Plain (", ".intercalate ((Prototype.ofSignature s).parameters.map
      fun q => q.type ++ " " ++ q.name)) := by
    refine plain_intercalate (plain_ofList _ (by decide)) fun text htext => ?_
    obtain ⟨q, hq, rfl⟩ := List.mem_map.mp htext
    rcases List.mem_cons.mp hq with rfl | hq
    · exact hparameter _ (plain_ofList _ (by decide)) (plain_ofList _ (by decide))
    · obtain ⟨index, hindex, rfl⟩ := List.mem_mapIdx.mp hq
      cases s.arguments[index] with
      | value type =>
        exact hparameter _ (plain_typeName type) (oneWord_argumentName index).plain
      | variadic => exact hparameter _ (plain_ofList _ (by decide)) (plain_ofList _ (by decide))
  unfold Prototype.render
  simp only [plain_append]
  exact ⟨⟨⟨⟨⟨plain_nativeResult s, hblank⟩, (oneWord_nativeName h).plain⟩,
    plain_ofList _ (by decide)⟩, hparameters⟩, plain_ofList _ (by decide)⟩

theorem plainCode_functionObject (h : OneWord name) : PlainCode (functionObject name) := by
  have hobject := (oneWord_objectName h).plain
  have hthunk := (oneWord_functionName h).plain
  unfold functionObject
  simp only [plainCode_append, plainCode_line, plainCode_indented, plain_append, hobject, hthunk,
    and_true]
  and_intros <;> exact plain_ofList _ (by decide)

theorem plainCode_getter (h : OneWord name) : PlainCode (getter name) := by
  have hobject := (oneWord_objectName h).plain
  have hthunk := (oneWord_functionName h).plain
  unfold getter
  simp only [plainCode_append, plainCode_line, plainCode_indented, plainCode_block, plain_append,
    hobject, hthunk, h.plain, and_true]
  and_intros <;> exact plain_ofList _ (by decide)

theorem plainCode_setUp {t : Thunk} (h : OneWord t.name) : PlainCode (Thunk.setUp t) := by
  have hslots := (oneWord_toString t.slots).plain
  unfold Thunk.setUp
  simp only [plainCode_append, plainCode_line, plainCode_indented, plain_append, h.plain, hslots,
    and_true]
  and_intros <;> exact plain_ofList _ (by decide)

end

/-! ### Thunks -/

namespace Thunk

open Statement

/-- A statement of plain lines. -/
def Statement.IsPlain (statement : Statement) : Prop := ∀ text ∈ statement.lines, Plain text

theorem isPlain_track (slot : Nat) {pointer : String} (h : Plain pointer) :
    (track slot pointer).IsPlain := by
  refine List.forall_mem_singleton.mpr ?_
  simp only [plain_append, h, (oneWord_toString slot).plain, and_true]
  and_intros <;> exact plain_ofList _ (by decide)

theorem isPlain_pull (index : Nat) (type : ValueType) : (pull index type).IsPlain := by
  refine List.forall_mem_singleton.mpr ?_
  simp only [plain_append, plain_typeName, (oneWord_argumentName index).plain,
    (oneWord_cursorGetter type).plain, true_and, and_true]
  and_intros <;> exact plain_ofList _ (by decide)

theorem isPlain_call {resultType : Option String} {function : String} {arguments : List String}
    (hresult : ∀ type ∈ resultType, Plain type) (hfunction : Plain function)
    (harguments : ∀ argument ∈ arguments, Plain argument) :
    (call resultType function arguments).IsPlain := by
  refine List.forall_mem_singleton.mpr ?_
  have hall : Plain (", ".intercalate arguments) :=
    plain_intercalate (plain_ofList _ (by decide)) harguments
  cases resultType with
  | none =>
    simp only [plain_append, hfunction, hall, and_true]
    and_intros <;> exact plain_ofList _ (by decide)
  | some type =>
    simp only [plain_append, hfunction, hall, hresult type rfl, true_and, and_true]
    and_intros <;> exact plain_ofList _ (by decide)

theorem isPlain_pulls (index slot : Nat) (args : List Argument) :
    ∀ statement ∈ pulls index slot args, statement.IsPlain := by
  induction index, slot, args using pulls.induct with
  | case1 => simp [pulls]
  | case2 index slot rest ih =>
    rw [pulls]
    exact List.forall_mem_cons.mpr ⟨isPlain_pull index .filcPtr, List.forall_mem_cons.mpr
      ⟨isPlain_track slot (oneWord_argumentName index).plain, ih⟩⟩
  | case3 index slot type rest hne ih =>
    rw [pulls]
    · exact List.forall_mem_cons.mpr ⟨isPlain_pull index type, ih⟩
    · exact hne
  | case4 index slot rest ih =>
    rw [pulls]
    exact ih

theorem isPlain_callNative {s : Signature} (h : OneWord s.name) {resultType : Option String}
    (hresult : ∀ type ∈ resultType, Plain type) : (callNative s resultType).IsPlain := by
  refine isPlain_call hresult (oneWord_nativeName h).plain ?_
  refine List.forall_mem_cons.mpr ⟨plain_ofList _ (by decide), fun argument hargument => ?_⟩
  obtain ⟨index, hindex, rfl⟩ := List.mem_mapIdx.mp hargument
  cases s.arguments[index] with
  | value type => exact (oneWord_argumentName index).plain
  | variadic => exact plain_ofList _ (by decide)

theorem isPlain_checkStore (type : ValueType) : (checkStore type).IsPlain := by
  unfold Statement.IsPlain lines
  by_cases h : type = .filcPtr
  · simp only [h, if_true]
    exact List.forall_mem_singleton.mpr (plain_ofList _ (by decide))
  · simp only [h, if_false, List.forall_mem_singleton, plain_append, plain_typeName, and_true]
    and_intros <;> exact plain_ofList _ (by decide)

theorem isPlain_store (type : ValueType) {value : String} (h : Plain value) :
    (store type value).IsPlain := by
  refine List.forall_mem_singleton.mpr ?_
  simp only [plain_append, plain_typeName, h, and_true]
  and_intros <;> exact plain_ofList _ (by decide)

theorem isPlain_giveBack {value : String} (h : Plain value) : (giveBack value).IsPlain := by
  refine List.forall_mem_singleton.mpr ?_
  simp only [plain_append, h, and_true]
  and_intros <;> exact plain_ofList _ (by decide)

theorem isPlain_callAndStore {s : Signature} (h : OneWord s.name) :
    ∀ statement ∈ callAndStore s, statement.IsPlain := by
  have hignored : ignoreStore.IsPlain := List.forall_mem_singleton.mpr (plain_ofList _ (by decide))
  have hresult : ∀ type ∈ some s.nativeResult, Plain type := by
    rintro _ ⟨⟩
    exact plain_nativeResult s
  unfold callAndStore
  cases s.result with
  | void =>
    refine List.forall_mem_cons.mpr ⟨isPlain_callNative h ?_,
      List.forall_mem_singleton.mpr hignored⟩
    cases s.throws with
    | false => simp
    | true => exact hresult
  | value type =>
    refine List.forall_mem_cons.mpr ⟨isPlain_checkStore type, List.forall_mem_cons.mpr
      ⟨isPlain_callNative h hresult, List.forall_mem_singleton.mpr (isPlain_store type ?_)⟩⟩
    cases s.throws <;> exact plain_ofList _ (by decide)

theorem isPlain_body {s : Signature} (h : OneWord s.name) :
    ∀ statement ∈ (ofSignature s).body, statement.IsPlain := by
  have hgiveBack : (giveBack (if s.throws then "result.has_exception" else "false")).IsPlain := by
    apply isPlain_giveBack
    cases s.throws <;> exact plain_ofList _ (by decide)
  have hpopFrames : popFrames.IsPlain := List.forall_mem_cons.mpr
    ⟨plain_ofList _ (by decide), List.forall_mem_singleton.mpr (plain_ofList _ (by decide))⟩
  simp only [ofSignature, List.forall_mem_append, List.forall_mem_cons]
  exact ⟨⟨⟨isPlain_track 0 (plain_ofList _ (by decide)), isPlain_pulls 0 1 s.arguments⟩,
    isPlain_callAndStore h⟩, hpopFrames, hgiveBack, List.forall_mem_nil _⟩

/-- The lines of the statements of a thunk. -/
def bodyCode (t : Thunk) : Code :=
  t.body.flatMap fun statement => statement.lines.flatMap Code.line

theorem plainCode_bodyCode {t : Thunk} (h : ∀ statement ∈ t.body, statement.IsPlain) :
    PlainCode t.bodyCode := by
  intro l hl
  obtain ⟨statement, hstatement, hl⟩ := List.mem_flatMap.mp hl
  obtain ⟨text, htext, hl⟩ := List.mem_flatMap.mp hl
  obtain rfl := List.mem_singleton.mp hl
  exact h statement hstatement text htext

end Thunk

/-- The code about a signature in the source, without its guard. -/
def definitions (s : Signature) : Code :=
  (Thunk.ofSignature s).code ++ functionObject s.name ++ getter s.name

theorem plainCode_definitions {s : Signature} (h : OneWord s.name) :
    PlainCode (definitions s) := by
  have hstart : Plain ("static bool " ++ Thunk.functionName s.name ++ "(PIZLONATED_SIGNATURE)") :=
    plain_append.mpr ⟨plain_append.mpr ⟨plain_ofList _ (by decide),
      (oneWord_functionName h).plain⟩, plain_ofList _ (by decide)⟩
  have hbody := Thunk.plainCode_bodyCode (Thunk.isPlain_body h)
  have hsetUp : PlainCode (Thunk.setUp (Thunk.ofSignature s)) := plainCode_setUp h
  rw [definitions, plainCode_append, plainCode_append]
  refine ⟨⟨plainCode_append.mpr ⟨plainCode_line.mpr hstart, ?_⟩, plainCode_functionObject h⟩,
    plainCode_getter h⟩
  exact plainCode_block.mpr (plainCode_append.mpr ⟨hsetUp, hbody⟩)

/-! ### Reading the lines -/

section
variable {c : Code} {text : String}

theorem legible_line (h : '\n' ∉ text.toList) (hstart : text.toList.head? ≠ some ' ') :
    ∀ l ∈ Code.line text, Legible l :=
  List.forall_mem_singleton.mpr ⟨h, fun _ => hstart⟩

theorem Plain.legible_line (h : Plain text) (hstart : text.toList.head? ≠ some ' ') :
    ∀ l ∈ Code.line text, Legible l :=
  Forwarder.legible_line (fun hmem => (h _ hmem).1 rfl) hstart

theorem legible_indented (h : PlainCode c) : ∀ l ∈ Code.indented c, Legible l := by
  intro l hl
  obtain ⟨inner, hinner, rfl⟩ := List.mem_map.mp hl
  exact ⟨fun hmem => (h inner hinner _ hmem).1 rfl, fun hdepth => by cases hdepth⟩

theorem legible_block (h : PlainCode c) : ∀ l ∈ Code.block c, Legible l := by
  have hbraces : Legible ⟨0, "\x7b"⟩ ∧ Legible ⟨0, "\x7d"⟩ :=
    ⟨⟨by decide, by decide⟩, ⟨by decide, by decide⟩⟩
  simp only [Code.block, List.forall_mem_append]
  exact ⟨⟨List.forall_mem_singleton.mpr hbraces.1, legible_indented h⟩,
    List.forall_mem_singleton.mpr hbraces.2⟩

end

theorem legible_definitions {s : Signature} (h : OneWord s.name) :
    ∀ l ∈ definitions s, Legible l := by
  have hplain := plainCode_definitions h
  unfold definitions Thunk.code functionObject getter at hplain ⊢
  simp only [plainCode_append, plainCode_line, plainCode_indented, plainCode_block] at hplain
  obtain ⟨⟨⟨hthunk, hsetUp, hbody⟩, ⟨hobject, hfields⟩, hend⟩, hgetter, hreturn⟩ := hplain
  simp only [List.forall_mem_append]
  refine ⟨⟨⟨hthunk.legible_line (by simp), ?_⟩, ⟨hobject.legible_line (by simp), ?_⟩,
    hend.legible_line (by simp)⟩, hgetter.legible_line (by simp), ?_⟩
  · exact legible_block (plainCode_append.mpr ⟨hsetUp, hbody⟩)
  · apply legible_indented
    simp only [plainCode_append, plainCode_line]
    exact hfields
  · apply legible_block
    simp only [plainCode_append, plainCode_line, plainCode_indented]
    exact hreturn

end CapFixture.Forwarder
