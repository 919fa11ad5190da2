import CapFixture.Proofs.Forwarder.Body

/-!
# The lines of thunks

The body of a thunk sets up its frame, pulls the arguments, calls the native function, and then
stores its result and gives the frame back. Each of these lines is read on its own: only those that
pull an argument take anything out of the buffer, and only the call is one of a native function.

## Main definitions

- `Pulls` — lines that take variables out of the buffer
- `Thunk.linesBefore`, `Thunk.callLine`, `Thunk.linesAfter` — the body of a thunk
-/

namespace CapFixture.Forwarder

open Table

/-- Whether the native function gives back anything. -/
def UsesResult (s : Signature) : Prop := s.throws = true ∨ s.result ≠ .void

instance (s : Signature) : Decidable (UsesResult s) :=
  inferInstanceAs (Decidable (s.throws = true ∨ s.result ≠ .void))

/-! ### The lines of thunks -/

namespace Thunk

open Statement

/-- What the lines of a statement consist of. -/
def Statement.lineTokens (statement : Statement) : List (List CToken) :=
  statement.lines.map tokens

theorem lineTokens_track (slot : Nat) {pointer : String} (h : tokens pointer = [.word pointer]) :
    (track slot pointer).lineTokens =
      [[.word "frame", .mark '-', .mark '>', .word "objects", .mark '[', .word (toString slot),
        .mark ']', .mark '=', .word "filc_ptr_object", .mark '(', .word pointer, .mark ')',
        .mark ';']] := by
  have hframe : tokens "frame->objects[" = [.word "frame", .mark '-', .mark '>', .word "objects",
      .mark '['] := (tokens_ofList _).trans (by decide)
  have hobject : tokens "] = filc_ptr_object(" = [.mark ']', .mark '=', .word "filc_ptr_object",
      .mark '('] := (tokens_ofList _).trans (by decide)
  have hend : tokens ");" = [.mark ')', .mark ';'] := by decide
  simp only [lineTokens, lines, List.map_singleton]
  rw [tokens_append_right (by decide), String.append_assoc, String.append_assoc,
    tokens_append_left (by decide), tokens_separated (by decide) (by decide) (by decide), hframe,
    hobject, hend, h, tokens_toString]
  rfl

theorem tokens_cursorGetter (type : ValueType) :
    tokens (cursorGetter type) = [.word (cursorGetter type)] := by
  refine tokens_eq_word ?_ (oneWord_cursorGetter type)
  unfold cursorGetter
  split <;> simp

theorem lineTokens_pull (index : Nat) (type : ValueType) : (pull index type).lineTokens =
    [type.words.map .word ++ [.word (argumentName index), .mark '=', .word (cursorGetter type),
      .mark '(', .mark '&', .word "args", .mark ')', .mark ';']] := by
  have hblank : tokens " " = [] := by decide
  have hequals : tokens " = " = [.mark '='] := by decide
  have hopen : tokens "(&" = [.mark '(', .mark '&'] := by decide
  have hcursor : tokens (cursorName ++ ");") = [.word "args", .mark ')', .mark ';'] := by decide
  simp only [lineTokens, lines, List.map_singleton, String.append_assoc]
  rw [tokens_separated (by decide) (by decide) (by decide),
    tokens_separated (by decide) (by decide) (by decide),
    tokens_separated (by decide) (by decide) (by decide), tokens_typeName, tokens_argumentName,
    tokens_cursorGetter, hblank, hequals, hopen, hcursor]
  rfl

theorem lineTokens_call (resultType : Option String) {function : String} {arguments : List String}
    (hfunction : tokens function = [.word function])
    (harguments : ∀ argument ∈ arguments, tokens argument = [.word argument]) :
    (call resultType function arguments).lineTokens =
      [(resultType.elim [] fun type => tokens type ++ [.word "result", .mark '=']) ++
        .word function :: .mark '(' ::
          ([CToken.mark ','].intercalate (arguments.map fun argument => [.word argument]) ++
            [.mark ')', .mark ';'])] := by
  have hresult : tokens " result = " = [.word "result", .mark '='] := by decide
  have hopen : tokens "(" = [.mark '('] := by decide
  have hend : tokens ");" = [.mark ')', .mark ';'] := by decide
  have hcall : tokens (function ++ ("(" ++ (", ".intercalate arguments ++ ");"))) =
      .word function :: .mark '(' ::
        ([CToken.mark ','].intercalate (arguments.map fun argument => [.word argument]) ++
          [.mark ')', .mark ';']) := by
    rw [tokens_separated (by decide) (by decide) (by decide), tokens_append_right (by decide),
      tokens_commas, List.map_congr_left harguments, hfunction, hopen, hend]
    rfl
  cases resultType with
  | none =>
    simp only [lineTokens, lines, List.map_singleton, String.append_assoc, String.empty_append,
      Option.elim_none, List.nil_append]
    rw [hcall]
  | some type =>
    simp only [lineTokens, lines, List.map_singleton, String.append_assoc, Option.elim_some]
    rw [tokens_separated (by decide) (by decide) (by decide), hcall, hresult, List.append_assoc]

theorem lineTokens_store (type : ValueType) {value : String} : (store type value).lineTokens =
    [.mark '*' :: .mark '(' :: (type.words.map .word ++ .mark '*' :: .mark ')' ::
      .word "filc_ptr_ptr" :: .mark '(' :: .word "rets" :: .mark ')' :: .mark '=' ::
        (tokens value ++ [.mark ';']))] := by
  have hopen : tokens "*(" = [.mark '*', .mark '('] := by decide
  have hrets : tokens "*)filc_ptr_ptr(rets) = " = [.mark '*', .mark ')', .word "filc_ptr_ptr",
      .mark '(', .word "rets", .mark ')', .mark '='] := (tokens_ofList _).trans (by decide)
  have hend : tokens ";" = [.mark ';'] := by decide
  simp only [lineTokens, lines, List.map_singleton, String.append_assoc]
  rw [tokens_append_left (by decide), tokens_separated (by decide) (by decide) (by decide),
    tokens_append_right (by decide), tokens_typeName, hopen, hrets, hend]
  rfl

theorem lineTokens_ignoreStore : ignoreStore.lineTokens =
    [[.word "PAS_UNUSED_PARAM", .mark '(', .word "rets", .mark ')', .mark ';']] :=
  congrArg (fun ts => [ts]) ((tokens_ofList _).trans (by decide))

theorem lineTokens_popFrames : popFrames.lineTokens =
    [[.word "filc_pop_native_frame", .mark '(', .word "my_thread", .mark ',', .mark '&',
        .word "native_frame", .mark ')', .mark ';'],
      [.word "filc_pop_frame", .mark '(', .word "my_thread", .mark ',', .word "frame", .mark ')',
        .mark ';']] :=
  congrArg₂ (fun ts us => [ts, us]) ((tokens_ofList _).trans (by decide))
    ((tokens_ofList _).trans (by decide))

theorem lineTokens_giveBack (value : String) :
    (giveBack value).lineTokens = [.word "return" :: (tokens value ++ [.mark ';'])] := by
  have hreturn : tokens "return " = [.word "return"] := by decide
  have hend : tokens ";" = [.mark ';'] := by decide
  simp only [lineTokens, lines, List.map_singleton]
  rw [tokens_append_right (by decide), tokens_append_left (by decide), hreturn, hend]
  rfl

/-! ### Quiet lines -/

theorem quiet_track (slot : Nat) {pointer : String} (h : tokens pointer = [.word pointer]) :
    ∀ ts ∈ (track slot pointer).lineTokens, Quiet ts := by
  rw [lineTokens_track slot h, List.forall_mem_singleton]
  refine ⟨⟨not_takesCursor (by simp), ?_⟩, rfl⟩
  change ∀ callee ∈ ["filc_ptr_object"], _
  decide

theorem quiet_checkStore (type : ValueType) :
    ∀ ts ∈ (checkStore type).lineTokens, Quiet ts := by
  have hopen : tokens "filc_check_write_int(rets, sizeof(" =
      [.word "filc_check_write_int", .mark '(', .word "rets", .mark ',', .word "sizeof",
        .mark '('] := (tokens_ofList _).trans (by decide)
  have hend : tokens "), NULL);" = [.mark ')', .mark ',', .word "NULL", .mark ')', .mark ';'] := by
    decide
  by_cases hptr : type = .filcPtr
  · subst hptr
    refine List.forall_mem_singleton.mpr ?_
    rw [tokens_ofList]
    decide
  · have hlines : (checkStore type).lineTokens =
        [tokens ("filc_check_write_int(rets, sizeof(" ++ type.name ++ "), NULL);")] := by
      rw [lineTokens, lines, if_neg hptr, List.map_singleton]
    rw [hlines, List.forall_mem_singleton, tokens_append_right (by decide),
      tokens_append_left (by decide), hopen, hend, tokens_typeName, List.append_assoc]
    refine ⟨⟨not_takesCursor (by simp), ?_⟩, rfl⟩
    change ∀ callee ∈ "filc_check_write_int" :: "sizeof" :: callees _, _
    rw [callees_eq_nil (by simp)]
    decide

theorem quiet_store (type : ValueType) {value : String}
    (h : .mark '(' ∉ tokens value ∧ .mark '&' ∉ tokens value) :
    ∀ ts ∈ (store type value).lineTokens, Quiet ts := by
  rw [lineTokens_store, List.forall_mem_singleton]
  refine ⟨⟨not_takesCursor (by simp [h.2]), ?_⟩, rfl⟩
  change ∀ callee ∈ callees (type.words.map .word ++ _), _
  rw [callees_append (by simp) (by simp)]
  change ∀ callee ∈ "filc_ptr_ptr" :: callees _, _
  rw [callees_eq_nil (by simp [h.1])]
  decide

theorem quiet_ignoreStore : ∀ ts ∈ ignoreStore.lineTokens, Quiet ts := by
  rw [lineTokens_ignoreStore]
  decide

theorem quiet_popFrames : ∀ ts ∈ popFrames.lineTokens, Quiet ts := by
  rw [lineTokens_popFrames]
  decide

/-! ### Setting up the frame -/

theorem tokens_setUp {t : Thunk} (h : tokens t.name = [.word t.name]) :
    (setUp t).map (fun l => tokens l.text) =
    [[.word "FILC_DEFINE_RUNTIME_ORIGIN", .mark '(', .word "origin", .mark ',', .mark '"',
        .word t.name, .mark '"', .mark ',', .word (toString t.slots), .mark ')', .mark ';'],
      [.word "struct", .mark '\x7b'],
      [.word "FILC_FRAME_BODY", .mark ';'],
      [.word "filc_object", .mark '*', .word "objects", .mark '[', .word (toString t.slots),
        .mark ']', .mark ';'],
      [.mark '\x7d', .word "actual_frame", .mark ';'],
      [.word "pas_zero_memory", .mark '(', .mark '&', .word "actual_frame", .mark ',',
        .word "sizeof", .mark '(', .word "actual_frame", .mark ')', .mark ')', .mark ';'],
      [.word "filc_frame", .mark '*', .word "frame", .mark '=', .mark '(', .word "filc_frame",
        .mark '*', .mark ')', .mark '&', .word "actual_frame", .mark ';'],
      [.word "frame", .mark '-', .mark '>', .word "origin", .mark '=', .mark '&', .word "origin",
        .mark ';'],
      [.word "filc_native_frame", .word "native_frame", .mark ';'],
      [.word "filc_push_frame", .mark '(', .word "my_thread", .mark ',', .word "frame", .mark ')',
        .mark ';'],
      [.word "filc_push_native_frame", .mark '(', .word "my_thread", .mark ',', .mark '&',
        .word "native_frame", .mark ')', .mark ';']] := by
  simp only [setUp, Code.line, Code.indented, List.map_cons, List.map_nil, List.cons_append,
    List.nil_append, List.cons.injEq, and_true]
  and_intros
  · have hopen : tokens "FILC_DEFINE_RUNTIME_ORIGIN(origin, \"" =
        [.word "FILC_DEFINE_RUNTIME_ORIGIN", .mark '(', .word "origin", .mark ',', .mark '"'] :=
      (tokens_ofList _).trans (by decide)
    have hquote : tokens "\", " = [.mark '"', .mark ','] := by decide
    have hend : tokens ");" = [.mark ')', .mark ';'] := by decide
    rw [tokens_append_right (by decide), String.append_assoc, String.append_assoc,
      tokens_append_left (by decide), tokens_separated (by decide) (by decide) (by decide), hopen,
      hquote, hend, h, tokens_toString]
    rfl
  · decide
  · decide
  · have hopen : tokens "filc_object* objects[" =
        [.word "filc_object", .mark '*', .word "objects", .mark '['] :=
      (tokens_ofList _).trans (by decide)
    have hend : tokens "];" = [.mark ']', .mark ';'] := by decide
    rw [tokens_append_right (by decide), tokens_append_left (by decide), hopen, hend,
      tokens_toString]
    rfl
  all_goals exact (tokens_ofList _).trans (by decide)

theorem foreign_setUp {t : Thunk} (h : tokens t.name = [.word t.name]) :
    ∀ ts ∈ (setUp t).map (fun l => tokens l.text), Foreign ts := by
  rw [tokens_setUp h]
  simp only [List.forall_mem_cons]
  refine ⟨⟨not_takesCursor (by simp), ?_⟩, by decide, by decide, ⟨not_takesCursor (by simp), ?_⟩,
    by decide, by decide, by decide, by decide, by decide, by decide, by decide, by simp⟩
  · change ∀ callee ∈ ["FILC_DEFINE_RUNTIME_ORIGIN"], _
    decide
  · exact List.forall_mem_nil _

theorem variableOf?_setUp {t : Thunk} (h : tokens t.name = [.word t.name]) :
    (((setUp t).map fun l => tokens l.text).filterMap variableOf?).map (fun found => found.1.name) =
      ["objects", "frame", "native_frame"] := by
  rw [tokens_setUp h]
  rfl

/-! ### Pulling arguments -/

theorem getterOf_words (type : ValueType) :
    getterOf (type.words.map .word) = cursorGetter type := by
  have hwords : (type.words.map CToken.word).filterMap CToken.word? = type.words := by
    rw [List.filterMap_map]
    exact List.filterMap_some
  by_cases hptr : type = .filcPtr
  · subst hptr
    decide
  · have hne : type.words.map CToken.word ≠ [.word "filc_ptr"] := by
      cases type <;> first | exact absurd rfl hptr | decide
    rw [getterOf, if_neg hne, hwords, cursorGetter, if_neg hptr, ValueType.helperName_eq hptr]

theorem after?_cursorGetter (type : ValueType) :
    after? "filc_native_" (cursorGetter type) = none := by
  unfold cursorGetter
  split
  · decide
  · exact after?_append_eq_none "filc_native_" "filc_ptr_get_next_" (by simp) (by simp) _

/-- The variables of the arguments from an index on. -/
def argumentVariables (index : Nat) : List Argument → List Named
  | [] => []
  | .value type :: rest =>
    ⟨type.words.map .word, argumentName index⟩ :: argumentVariables (index + 1) rest
  | .variadic :: rest => argumentVariables (index + 1) rest

theorem head?_words_ne_return (type : ValueType) :
    (type.words.map CToken.word).head? ≠ some (.word "return") := by
  cases type <;> decide

/-- Lines that take these variables out of the buffer, in this order, and otherwise do nothing. -/
structure Pulls (lines : List (List CToken)) (pulled : List Named) : Prop where
  cursor : (lines.filter TakesCursor).map variableOf? =
    pulled.map fun q => some (q, fromBuffer q.type)
  declares : lines.filterMap variableOf? = pulled.map fun q => (q, fromBuffer q.type)
  native : ∀ ts ∈ lines, ∀ callee ∈ callees ts, after? "filc_native_" callee = none

namespace Pulls

variable {lines more : List (List CToken)} {pulled others : List Named}

theorem append (h : Pulls lines pulled) (hmore : Pulls more others) :
    Pulls (lines ++ more) (pulled ++ others) where
  cursor := by rw [List.filter_append, List.map_append, h.cursor, hmore.cursor, List.map_append]
  declares := by rw [List.filterMap_append, h.declares, hmore.declares, List.map_append]
  native := List.forall_mem_append.mpr ⟨h.native, hmore.native⟩

theorem of_quiet (h : ∀ ts ∈ lines, Quiet ts) : Pulls lines [] where
  cursor := by
    rw [List.filter_eq_nil_iff.mpr fun ts hts => by simpa using (h ts hts).cursor]
    rfl
  declares := List.filterMap_eq_nil_iff.mpr fun ts hts => (h ts hts).declares
  native := fun ts hts => (h ts hts).native

/-- The line that pulls an argument takes it out of the buffer and declares its variable. -/
theorem pull (index : Nat) (type : ValueType) :
    Pulls (pull index type).lineTokens [⟨type.words.map .word, argumentName index⟩] := by
  have hcursor : TakesCursor (type.words.map .word ++ [.word (argumentName index), .mark '=',
      .word (cursorGetter type), .mark '(', .mark '&', .word "args", .mark ')', .mark ';']) :=
    ⟨type.words.map .word ++ [.word (argumentName index), .mark '=', .word (cursorGetter type),
      .mark '('], [.mark ')', .mark ';'], by simp⟩
  have hvariable : variableOf? (type.words.map .word ++ [.word (argumentName index), .mark '=',
      .word (cursorGetter type), .mark '(', .mark '&', .word "args", .mark ')', .mark ';']) =
        some (⟨type.words.map .word, argumentName index⟩, fromBuffer (type.words.map .word)) := by
    rw [variableOf?_declaration (by simpa using type.words_ne_nil) (by simp [CToken.isOfType])
      (head?_words_ne_return type) (by simp), fromBuffer, getterOf_words]
  rw [lineTokens_pull]
  refine ⟨?_, ?_, List.forall_mem_singleton.mpr ?_⟩
  · rw [List.filter_cons_of_pos (by simpa using hcursor), List.filter_nil, List.map_singleton,
      hvariable]
    rfl
  · rw [List.filterMap_cons_some hvariable]
    rfl
  · rw [callees_append (by simp) (by simp)]
    change ∀ callee ∈ [cursorGetter type], _
    exact List.forall_mem_singleton.mpr (after?_cursorGetter type)

end Pulls

theorem pulls_pulls (index slot : Nat) (args : List Argument) :
    Pulls ((pulls index slot args).flatMap lineTokens) (argumentVariables index args) := by
  induction index, slot, args using pulls.induct with
  | case1 => exact .of_quiet (by simp [pulls])
  | case2 index slot rest ih =>
    -- A pointer is tracked as soon as it is pulled, which pulls nothing more.
    have htrack := quiet_track slot (tokens_argumentName index)
    exact (Pulls.pull index .filcPtr).append ((Pulls.of_quiet htrack).append ih)
  | case3 index slot type rest hne ih =>
    rw [pulls, List.flatMap_cons]
    · exact (Pulls.pull index type).append ih
    · exact hne
  | case4 index slot rest ih => exact ih

/-! ### The lines around the call -/

/-- What is declared to hold what the native function returns. -/
def resultType (s : Signature) : Option String :=
  if UsesResult s then some s.nativeResult else none

/-- What has to hold before the call for the result to be stored. -/
def checks (s : Signature) : List Statement :=
  match s.result with
  | .void => []
  | .value type => [.checkStore type]

/-- What becomes of the result. -/
def keep (s : Signature) : Statement :=
  match s.result with
  | .void => .ignoreStore
  | .value type => .store type (if s.throws then "result.value" else "result")

theorem callAndStore_eq (s : Signature) :
    callAndStore s = checks s ++ [callNative s (resultType s), keep s] := by
  obtain ⟨name, result, throws, args, defines⟩ := s
  cases result <;> cases throws <;> rfl

/-- The lines before the call. -/
def linesBefore (s : Signature) : List (List CToken) :=
  (setUp (ofSignature s)).map (fun l => tokens l.text) ++
    (track 0 cursorName :: pulls 0 1 s.arguments ++ checks s).flatMap lineTokens

/-- The lines after the call. -/
def linesAfter (s : Signature) : List (List CToken) :=
  [keep s, popFrames, giveBack (if s.throws then "result.has_exception" else "false")].flatMap
    lineTokens

theorem tokens_bodyCode (t : Thunk) :
    t.bodyCode.map (fun l => tokens l.text) = t.body.flatMap lineTokens := by
  rw [bodyCode, List.map_flatMap]
  refine List.flatMap_congr fun statement _ => ?_
  rw [List.map_flatMap, lineTokens, List.map_eq_flatMap]
  rfl

theorem tokens_body (s : Signature) :
    (setUp (ofSignature s) ++ (ofSignature s).bodyCode).map (fun l => tokens l.text) =
      linesBefore s ++ ((callNative s (resultType s)).lineTokens ++ linesAfter s) := by
  rw [List.map_append, tokens_bodyCode, linesBefore, linesAfter]
  simp [ofSignature, callAndStore_eq]

section
variable {s : Signature}

theorem tokens_threadName : tokens threadName = [.word threadName] := by decide

theorem tokens_cursorName : tokens cursorName = [.word cursorName] := by decide

/-- Before the call, the arguments are pulled. -/
theorem linesBefore_eq (s : Signature) : ∃ pulling,
    linesBefore s = (setUp (ofSignature s)).map (fun l => tokens l.text) ++ pulling ∧
      Pulls pulling (argumentVariables 0 s.arguments) := by
  have htrack := Pulls.of_quiet (quiet_track 0 tokens_cursorName)
  have hchecks : Pulls ((checks s).flatMap lineTokens) [] := by
    refine .of_quiet fun ts hts => ?_
    unfold checks at hts
    split at hts
    · simp at hts
    · rename_i type _
      exact quiet_checkStore type ts (by simpa using hts)
  refine ⟨_, rfl, ?_⟩
  have hall := htrack.append ((pulls_pulls 0 1 s.arguments).append hchecks)
  rw [List.append_nil, List.nil_append] at hall
  rw [List.cons_append, List.flatMap_cons, List.flatMap_append]
  exact hall

theorem tokens_keptValue (throws : Bool) :
    tokens (if throws then "result.value" else "result") =
      .word "result" :: if throws then [.mark '.', .word "value"] else [] := by
  cases throws <;> exact (tokens_ofList _).trans (by decide)

theorem tokens_givenBack (throws : Bool) :
    tokens (if throws then "result.has_exception" else "false") =
      if throws then [.word "result", .mark '.', .word "has_exception"] else [.word "false"] := by
  cases throws <;> exact (tokens_ofList _).trans (by decide)

theorem quiet_keep (s : Signature) : ∀ ts ∈ (keep s).lineTokens, Quiet ts := by
  unfold keep
  split
  · exact quiet_ignoreStore
  · refine quiet_store _ ?_
    rw [tokens_keptValue]
    split <;> simp

theorem quiet_linesAfter (s : Signature) : ∀ ts ∈ linesAfter s, Quiet ts := by
  have hgiveBack : ∀ ts ∈ (giveBack (if s.throws then "result.has_exception" else
      "false")).lineTokens, Quiet ts := by
    rw [lineTokens_giveBack, List.forall_mem_singleton, tokens_givenBack]
    split <;> decide
  rw [linesAfter]
  simp only [List.flatMap_cons, List.flatMap_nil, List.append_nil, List.forall_mem_append]
  exact ⟨quiet_keep s, quiet_popFrames, hgiveBack⟩

/-- After the call, the result is used if there is one. -/
theorem exists_mem_linesAfter (s : Signature) :
    (∃ ts ∈ linesAfter s, .word "result" ∈ ts) ↔ UsesResult s := by
  have hkeep : (∃ ts ∈ (keep s).lineTokens, .word "result" ∈ ts) ↔ s.result ≠ .void := by
    unfold keep
    split
    · rename_i hvoid
      simp [lineTokens_ignoreStore, hvoid]
    · rename_i type hvalue
      simp [lineTokens_store, tokens_keptValue, hvalue]
  have hgiveBack : (∃ ts ∈ (giveBack (if s.throws then "result.has_exception" else
      "false")).lineTokens, .word "result" ∈ ts) ↔ s.throws = true := by
    rw [lineTokens_giveBack, tokens_givenBack]
    cases s.throws <;> simp
  have hpop : ¬ ∃ ts ∈ popFrames.lineTokens, .word "result" ∈ ts := by
    simp [lineTokens_popFrames]
  rw [linesAfter, UsesResult]
  simp only [List.flatMap_cons, List.flatMap_nil, List.append_nil, List.mem_append, or_and_right,
    exists_or, hkeep, hpop, hgiveBack, false_or]
  exact or_comm

theorem tokens_passed {args : List Argument} :
    ∀ argument ∈ threadName :: args.mapIdx passed, tokens argument = [.word argument] := by
  refine List.forall_mem_cons.mpr ⟨tokens_threadName, fun argument hargument => ?_⟩
  obtain ⟨index, hindex, rfl⟩ := List.mem_mapIdx.mp hargument
  cases args[index] with
  | value type => exact tokens_argumentName index
  | variadic => exact tokens_cursorName

theorem head?_nativeResult_ne_return (s : Signature) :
    ((nativeResultWords s).map CToken.word).head? ≠ some (.word "return") := by
  unfold nativeResultWords
  split
  · intro h
    have hword := congrArg String.toList (CToken.word.inj (Option.some.inj h))
    simp at hword
  · cases s.result with
    | void => decide
    | value type => exact head?_words_ne_return type

theorem nativeResultWords_ne_nil (s : Signature) : nativeResultWords s ≠ [] := by
  unfold nativeResultWords
  split
  · exact List.cons_ne_nil _ _
  · exact s.result.words_ne_nil

/-- What the result is assigned to. -/
def target (s : Signature) : List CToken :=
  (resultType s).elim [] fun type => tokens type ++ [.word "result", .mark '=']

/-- The variables that are passed, with the end of the call. -/
def passedTokens (s : Signature) : List CToken :=
  [CToken.mark ','].intercalate
      ((threadName :: s.arguments.mapIdx passed).map fun argument => [.word argument]) ++
    [.mark ')', .mark ';']

def callLine (s : Signature) : List CToken :=
  target s ++ .word (nativeName s.name) :: .mark '(' :: passedTokens s

theorem lineTokens_callNative (h : OneWord s.name) :
    (callNative s (resultType s)).lineTokens = [callLine s] :=
  lineTokens_call (resultType s) (tokens_nativeName h) tokens_passed

theorem mark_mem_target {c : Char} (h : .mark c ∈ target s) : c = '=' := by
  unfold target resultType at h
  split at h
  · rw [Option.elim_some, tokens_nativeResult] at h
    simpa using h
  · simp at h

theorem mark_mem_passedTokens {c : Char} (h : .mark c ∈ passedTokens s) : c ∈ [',', ')', ';'] := by
  rcases List.mem_append.mp h with h | h
  · have hcomma : ∀ t ∈ [CToken.mark ','].intercalate ((threadName :: s.arguments.mapIdx
        passed).map fun argument => [CToken.word argument]), t = .mark c → ',' = c := by
      refine forall_mem_intercalate (by simp) (List.forall_mem_map.mpr ?_)
      simp
    simp [← hcomma _ h rfl]
  · simp at h
    simp [h]

/-- The call passes on the variables of the arguments. -/
theorem callsOf_callLine (s : Signature) : callsOf (nativeName s.name) (callLine s) =
    [(threadName :: s.arguments.mapIdx passed).map fun argument => [.word argument]] := by
  have htarget : .mark '(' ∉ target s := fun h => absurd (mark_mem_target h) (by decide)
  have hpassed : .mark '(' ∉ passedTokens s := fun h => absurd (mark_mem_passedTokens h) (by decide)
  have harguments : argumentsOf (passedTokens s) = (threadName :: s.arguments.mapIdx passed).map
      fun argument => [.word argument] :=
    argumentsOf_intercalate (by simp) (List.forall_mem_map.mpr (by simp))
  rw [callsOf, callLine, calls_append htarget (by simp), calls, calls_eq_nil hpassed, ← harguments]
  simp

theorem not_takesCursor_callLine (s : Signature) : ¬ TakesCursor (callLine s) := by
  refine not_takesCursor fun h => ?_
  rcases List.mem_append.mp h with h | h
  · exact absurd (mark_mem_target h) (by decide)
  · exact absurd (mark_mem_passedTokens (c := '&') (by simpa using h)) (by decide)

/-- If there is a result, the call declares it. -/
theorem variableOf?_callLine (s : Signature) : (variableOf? (callLine s)).map Prod.fst =
    if UsesResult s then some ⟨tokens s.nativeResult, "result"⟩ else none := by
  unfold callLine target resultType
  split
  · rw [Option.elim_some, tokens_nativeResult, List.append_assoc, List.cons_append,
      List.singleton_append, variableOf?_declaration (by simpa using nativeResultWords_ne_nil s)
        (by simp [CToken.isOfType]) (head?_nativeResult_ne_return s) (by simp)]
    rfl
  · have hdrop : (CToken.word (nativeName s.name) :: .mark '(' :: passedTokens s).dropWhile
        CToken.isOfType = .mark '(' :: passedTokens s := rfl
    unfold variableOf?
    rw [Option.elim_none, List.nil_append, hdrop, if_neg (by simp)]
    rfl

end

end Thunk

end CapFixture.Forwarder
