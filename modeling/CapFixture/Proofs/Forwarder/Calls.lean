import CapFixture.Proofs.Forwarder.ThunkLines

/-!
# Calls of native functions

A thunk calls its native function once, as the prototype in the header declares it: each parameter
is passed the variable of its name, which has been pulled from the buffer with the type of the
parameter, or the cursor itself.

## Main definitions

- `prototypesIn`, `thunksIn` — the prototypes and the thunks in a text
- `prototypeFor` — the prototype that a signature has
- `CallsAsDeclared` — the lines of a thunk call a function as a prototype declares it
-/

namespace CapFixture.Forwarder

open Table

/-- A function that is declared in the header. -/
structure CPrototype where
  result : List CToken
  function : String
  parameters : List Named
  deriving DecidableEq, Repr

/-- The function that a line declares for the outside. -/
def prototype? : List CToken → Option CPrototype
  | .word "PAS_API" :: ts =>
    match named? (ts.takeWhile CToken.isOfType), ts.dropWhile CToken.isOfType with
    | some found, .mark '(' :: rest =>
      ((argumentsOf rest).mapM named?).map fun parameters => ⟨found.type, found.name, parameters⟩
    | _, _ => none
  | _ => none

/-- The lines that are no directives. -/
def codeRows (lines : List Row) : List Row := lines.filter fun row => row.role = .text

/-- The functions that are declared for the outside. -/
def prototypesIn (lines : List Row) : List CPrototype :=
  (codeRows lines).filterMap fun row => prototype? row.tokens

/-- The thunks with the lines of their bodies, which are indented and come after a brace. -/
def thunksFrom : List Row → List (String × List (List CToken))
  | [] => []
  | row :: rest =>
    match row.declared? "native_thunk_" with
    | some name => (name, (rest.tail.takeWhile Row.indented).map Row.tokens) :: thunksFrom rest
    | none => thunksFrom rest

def thunksIn (lines : List Row) : List (String × List (List CToken)) := thunksFrom (codeRows lines)

/-- The parameter for an argument at an index. -/
def parameterFor (index : Nat) : Argument → Named
  | .value type => ⟨tokens type.name, "arg" ++ toString index⟩
  | .variadic => ⟨[.word "filc_ptr"], "args"⟩

/-- A function that takes the calling thread and then the arguments of a signature. -/
def prototypeFor (s : Signature) : CPrototype where
  result := tokens s.nativeResult
  function := "filc_native_" ++ s.name
  parameters := ⟨[.word "filc_thread", .mark '*'], "my_thread"⟩ :: s.arguments.mapIdx parameterFor

/-- A line, with those before and after it, that calls a function as it is declared. -/
structure CallsAsDeclared (s : Signature) (p : CPrototype) (before : List (List CToken))
    (call : List CToken) (after : List (List CToken)) : Prop where
  passed : callsOf p.function call = [p.parameters.map fun q => [.word q.name]]
  once : ∀ ts ∈ before ++ after, callsOf p.function ts = []
  /-- All parameters behind the thread but the cursor are pulled in their order. -/
  pulled : (before.filter TakesCursor).map variableOf? =
    (p.parameters.tail.filter fun q => q.name ≠ "args").map fun q => some (q, fromBuffer q.type)
  /-- Nothing else is pulled. -/
  cursor : ∀ ts ∈ call :: after, ¬ TakesCursor ts
  /-- No variable is declared twice. -/
  distinct : (((before ++ call :: after).filterMap variableOf?).map fun found =>
    found.1.name).Nodup
  result : (variableOf? call).map Prod.fst =
    if UsesResult s then some ⟨p.result, "result"⟩ else none
  no_other_result : ∀ found ∈ (before ++ after).filterMap variableOf?, found.1.name ≠ "result"
  used : (∃ ts ∈ after, .word "result" ∈ ts) ↔ UsesResult s

/-! ### Variables and parameters -/

section
variable {s : Signature}

theorem argumentName_ne_cursorName (index : Nat) : argumentName index ≠ "args" := by
  intro h
  have hdigits : Nat.toDigits 10 index = ['s'] := by
    simpa [argumentName] using congrArg String.toList h
  have hdigit := Text.isDigit_of_mem_decimal (hdigits ▸ List.mem_singleton_self 's')
  exact absurd hdigit (by decide)

theorem argumentName_injective : Function.Injective argumentName := by
  intro i j h
  exact Text.decimal_injective (by simpa [argumentName] using congrArg String.toList h)

/-- The parameters from an index on are that of the first argument and those from the next index
on. -/
theorem mapIdx_parameterFor_cons (index : Nat) (arg : Argument) (args : List Argument) :
    ((arg :: args).mapIdx fun i => parameterFor (index + i)) =
      parameterFor index arg :: args.mapIdx fun i => parameterFor (index + 1 + i) := by
  have hshift : (fun i => parameterFor (index + (i + 1))) =
      fun i => parameterFor (index + 1 + i) :=
    funext fun i => congrArg parameterFor (by omega)
  rw [List.mapIdx_cons, hshift, Nat.add_zero]

/-- The pulled variables are the parameters but the cursor. -/
theorem argumentVariables_eq (index : Nat) (args : List Argument) :
    Thunk.argumentVariables index args =
      (args.mapIdx fun i => parameterFor (index + i)).filter fun q => q.name ≠ "args" := by
  induction args generalizing index with
  | nil => rfl
  | cons arg args ih =>
    rw [mapIdx_parameterFor_cons]
    -- A variadic argument has an index, but no variable of its own.
    cases arg with
    | value type =>
      have hname : (parameterFor index (.value type)).name ≠ "args" :=
        argumentName_ne_cursorName index
      rw [List.filter_cons_of_pos (by simpa using hname), ← ih, parameterFor, tokens_typeName]
      rfl
    | variadic =>
      rw [List.filter_cons_of_neg (by simp [parameterFor]), ← ih]
      rfl

/-- The variables of the arguments from an index on are numbered from there. -/
theorem exists_argumentName {index : Nat} {args : List Argument} {name : String}
    (h : name ∈ (Thunk.argumentVariables index args).map Named.name) :
    ∃ i, index ≤ i ∧ name = argumentName i := by
  induction index, args using Thunk.argumentVariables.induct with
  | case1 => simp [Thunk.argumentVariables] at h
  | case2 index type rest ih =>
    rcases List.mem_cons.mp h with rfl | h
    · exact ⟨index, Nat.le_refl index, rfl⟩
    · obtain ⟨i, hi, rfl⟩ := ih h
      exact ⟨i, Nat.le_of_succ_le hi, rfl⟩
  | case3 index rest ih =>
    obtain ⟨i, hi, rfl⟩ := ih h
    exact ⟨i, Nat.le_of_succ_le hi, rfl⟩

theorem nodup_argumentVariables (index : Nat) (args : List Argument) :
    ((Thunk.argumentVariables index args).map Named.name).Nodup := by
  induction index, args using Thunk.argumentVariables.induct with
  | case1 => exact List.nodup_nil
  | case2 index type rest ih =>
    refine List.nodup_cons.mpr ⟨fun h => ?_, ih⟩
    -- The variables behind this one have higher numbers.
    obtain ⟨i, hi, heq⟩ := exists_argumentName h
    have hindex := argumentName_injective heq
    omega
  | case3 index rest ih => exact ih

theorem mapM_named? {ps : List Named} (h : ∀ q ∈ ps, q.type ≠ []) :
    (ps.map fun q => q.type ++ [.word q.name]).mapM named? = some ps := by
  induction ps with
  | nil => rfl
  | cons q ps ih =>
    rw [List.forall_mem_cons] at h
    rw [List.map_cons, List.mapM_cons, named?_append h.1, ih h.2]
    rfl

theorem parameterFor_type (index : Nat) (arg : Argument) :
    (parameterFor index arg).type ≠ [] ∧
      ∀ c, .mark c ∉ (parameterFor index arg).type := by
  cases arg with
  | value type => simp [parameterFor, tokens_typeName, type.words_ne_nil]
  | variadic => simp [parameterFor]

theorem parameterTokens_parameter (index : Nat) (arg : Argument) :
    parameterTokens (Prototype.parameter index arg) =
      (parameterFor index arg).type ++ [.word (parameterFor index arg).name] := by
  cases arg with
  | value type => exact congrArg (tokens type.name ++ ·) (tokens_argumentName index)
  | variadic =>
    have hcursor : parameterTokens ⟨"filc_ptr", "args"⟩ = [.word "filc_ptr", .word "args"] := by
      decide
    exact hcursor

theorem map_mapIdx_congr {α β γ δ : Type} {f : Nat → α → β} {g : Nat → α → γ} {p : β → δ}
    {q : γ → δ} (h : ∀ i a, p (f i a) = q (g i a)) (as : List α) :
    (as.mapIdx f).map p = (as.mapIdx g).map q :=
  List.ext_getElem (by simp) fun i _ _ => by simp [h]

/-- A prototype is read back. -/
theorem prototype?_declaration (h : OneWord s.name) :
    prototype? (tokens ("PAS_API " ++ (Prototype.ofSignature s).render)) =
      some (prototypeFor s) := by
  have hthread : parameterTokens ⟨"filc_thread*", threadName⟩ =
      [.word "filc_thread", .mark '*', .word "my_thread"] := by decide
  have hparameters : (Prototype.ofSignature s).parameters.map parameterTokens =
      (prototypeFor s).parameters.map fun q => q.type ++ [.word q.name] := by
    rw [Prototype.ofSignature, prototypeFor, List.map_cons, List.map_cons, hthread]
    exact congrArg (_ :: ·) (map_mapIdx_congr parameterTokens_parameter s.arguments)
  have htypes : ∀ q ∈ (prototypeFor s).parameters, q.type ≠ [] ∧
      .mark ',' ∉ q.type ∧ .mark ')' ∉ q.type := by
    refine List.forall_mem_cons.mpr ⟨by simp, fun q hq => ?_⟩
    obtain ⟨index, hindex, rfl⟩ := List.mem_mapIdx.mp hq
    obtain ⟨hne, hmark⟩ := parameterFor_type index s.arguments[index]
    exact ⟨hne, hmark _, hmark _⟩
  obtain ⟨htake, hdrop⟩ := @span_declaration ((nativeResultWords s).map .word)
    ([CToken.mark ','].intercalate ((prototypeFor s).parameters.map fun q =>
      q.type ++ [.word q.name]) ++ [.mark ')', .mark ';']) (nativeName s.name) '('
    (by simp [CToken.isOfType]) rfl
  have hresult : (nativeResultWords s).map CToken.word ≠ [] := by
    simpa using Thunk.nativeResultWords_ne_nil s
  rw [tokens_declaration h, hparameters, prototype?, htake, hdrop, named?_append hresult]
  change ((argumentsOf _).mapM named?).map _ = _
  rw [argumentsOf_intercalate (by simp [prototypeFor]), mapM_named? fun q hq => (htypes q hq).1,
    ← tokens_nativeResult]
  · rfl
  · simp only [List.forall_mem_map]
    exact fun q hq => by simpa using (htypes q hq).2

end

/-! ### Code without its guards -/

section
variable {ss : List Signature} {front rest : List Row}

/-- The lines that are no directives are those that are compiled where everything is defined. -/
theorem codeRows_of_survivors {guards : List Bool} {lines kept : List Row}
    (hguards : guards.all id = true) (h : survivors (fun _ => true) guards lines = some kept) :
    codeRows lines = kept := by
  -- All guards that are open hold, whatever their symbols, so that no other line is left out.
  induction lines generalizing guards kept with
  | nil =>
    rw [survivors] at h
    split at h
    · exact Option.some.inj h
    · cases h
  | cons row rest ih =>
    cases hrole : row.role with
    | opens symbols =>
      rw [survivors_opens hrole] at h
      rw [codeRows, List.filter_cons_of_neg (by simp [hrole])]
      exact ih (by simpa using hguards) h
    | closes =>
      rw [codeRows, List.filter_cons_of_neg (by simp [hrole])]
      cases guards with
      | nil => simp [survivors, hrole] at h
      | cons holds outer =>
        rw [survivors_closes hrole] at h
        exact ih (Bool.and_eq_true_iff.mp hguards).2 h
    | unreadable => simp [survivors, hrole] at h
    | text =>
      rw [survivors_text hrole] at h
      obtain ⟨later, hlater, rfl⟩ := Option.map_eq_some_iff.mp h
      rw [codeRows, List.filter_cons_of_pos (by simp [hrole]), if_pos hguards]
      exact congrArg (row :: ·) (ih hguards hlater)

theorem prototype?_of_isSilent {row : Row} (h : row.IsSilent) : prototype? row.tokens = none := by
  have hstart := h.start
  unfold prototype?
  split
  · rename_i hrow
    simp [hrow, CToken.word?] at hstart
  · rfl

theorem filterMap_declarations (hss : ∀ s ∈ ss, s.Declarable) :
    (ss.flatMap fun s => (declaration s).map rowOf).filterMap (fun row => prototype? row.tokens) =
      ss.map prototypeFor := by
  induction ss with
  | nil => rfl
  | cons s ss ih =>
    rw [List.forall_mem_cons] at hss
    have hrow : prototype? (rowOf ⟨0, "PAS_API " ++ (Prototype.ofSignature s).render⟩).tokens =
        some (prototypeFor s) := prototype?_declaration hss.1.name.parts
    rw [List.flatMap_cons, List.filterMap_append, ih hss.2, declaration, Code.line,
      List.map_singleton,
      List.filterMap_cons_some (f := fun row : Row => prototype? row.tokens) hrow]
    rfl

/-- The prototypes of the header are those of the signatures. -/
theorem prototypesIn_header (hss : ∀ s ∈ ss, s.Declarable) :
    prototypesIn (rows (header ss)) = ss.map prototypeFor := by
  obtain ⟨front, hsurvivors, hfront⟩ := survivors_header hss fun _ => true
  have hall : (ss.filter fun s => s.defines.all fun _ => true) = ss := by simp
  rw [hall] at hsurvivors
  rw [prototypesIn, codeRows_of_survivors rfl hsurvivors, List.filterMap_append,
    List.filterMap_eq_nil_iff.mpr fun row hrow => prototype?_of_isSilent (hfront row hrow),
    filterMap_declarations hss, List.nil_append]

theorem thunksFrom_append (h : ∀ row ∈ front, row.declared? "native_thunk_" = none) :
    thunksFrom (front ++ rest) = thunksFrom rest := by
  induction front with
  | nil => rfl
  | cons row front ih =>
    rw [List.forall_mem_cons] at h
    rw [List.cons_append, thunksFrom, h.1]
    exact ih h.2

/-- What the lines of a thunk's body consist of. -/
def bodyTokens (s : Signature) : List (List CToken) :=
  Thunk.linesBefore s ++ Thunk.callLine s :: Thunk.linesAfter s

/-- The rows of the definitions: the start of the thunk, its body in braces, and what follows. -/
theorem rows_definitions (s : Signature) : ∃ more, (definitions s).map rowOf =
    rowOf ⟨0, "static bool " ++ Thunk.functionName s.name ++ "(PIZLONATED_SIGNATURE)"⟩ ::
      rowOf ⟨0, "\x7b"⟩ :: ((Code.indented (Thunk.setUp (Thunk.ofSignature s) ++
        (Thunk.ofSignature s).bodyCode)).map rowOf ++ rowOf ⟨0, "\x7d"⟩ :: more) := by
  refine ⟨(functionObject s.name ++ getter s.name).map rowOf, ?_⟩
  simp only [definitions, Thunk.code, Code.block, Code.line, List.map_append, List.append_assoc,
    List.cons_append, List.nil_append, List.map_cons]
  rfl

/-- The thunk of a signature is read off its definitions. -/
theorem thunksFrom_definitions {s : Signature} (h : IsIdentifier s.name) :
    thunksFrom ((definitions s).map rowOf ++ rest) = (s.name, bodyTokens s) :: thunksFrom rest := by
  obtain ⟨more, hrows⟩ := rows_definitions s
  have hstart : (rowOf ⟨0, "static bool " ++ Thunk.functionName s.name ++
      "(PIZLONATED_SIGNATURE)"⟩).declared? "native_thunk_" = some s.name := by
    have hword := congrArg (Option.bind · (after? "native_thunk_")) (declaredWord?_thunk h.parts)
    exact hword.trans (after?_append "native_thunk_" s.name)
  -- The definitions declare one thunk, so no row but the first does.
  have hothers := @declared_definitions_eq "native_thunk_" s h.parts (by simp)
  rw [hrows, declared, List.filterMap_cons_some hstart, List.cons_eq_cons] at hothers
  have hnone := List.filterMap_eq_nil_iff.mp hothers.2
  have hindented : ∀ row ∈ (Code.indented (Thunk.setUp (Thunk.ofSignature s) ++
      (Thunk.ofSignature s).bodyCode)).map rowOf, row.indented = true := by
    intro row hrow
    obtain ⟨l, hl, rfl⟩ := List.mem_map.mp hrow
    obtain ⟨inner, _, rfl⟩ := List.mem_map.mp hl
    exact decide_eq_true (Nat.succ_pos inner.depth)
  have hbody : ((Code.indented (Thunk.setUp (Thunk.ofSignature s) ++
      (Thunk.ofSignature s).bodyCode)).map rowOf).map Row.tokens = bodyTokens s := by
    rw [bodyTokens, ← List.singleton_append, ← Thunk.lineTokens_callNative h.parts,
      ← Thunk.tokens_body, Code.indented, List.map_map, List.map_map]
    rfl
  have hclose : (rowOf ⟨0, "\x7d"⟩).indented = false := rfl
  rw [hrows, List.cons_append, thunksFrom, hstart, thunksFrom_append hnone]
  change (s.name, List.map Row.tokens _) :: _ = _
  rw [List.cons_append, List.tail_cons, List.append_assoc, List.cons_append,
    List.takeWhile_append_of_pos hindented, List.takeWhile_cons_of_neg (by simp [hclose]),
    List.append_nil, hbody]

/-- The thunks of the source are those of the signatures. -/
theorem thunksIn_source (hss : ∀ s ∈ ss, s.Declarable) :
    thunksIn (rows (source ss)) = ss.map fun s => (s.name, bodyTokens s) := by
  obtain ⟨front, hsurvivors, hfront⟩ := survivors_source hss fun _ => true
  have hall : (ss.filter fun s => s.defines.all fun _ => true) = ss := by simp
  have hnone : ∀ row ∈ front, row.declared? "native_thunk_" = none :=
    List.filterMap_eq_nil_iff.mp (declared_of_isSilent hfront)
  rw [hall] at hsurvivors
  rw [thunksIn, codeRows_of_survivors rfl hsurvivors, thunksFrom_append hnone]
  clear hsurvivors hall
  induction ss with
  | nil => rfl
  | cons s ss ih =>
    rw [List.forall_mem_cons] at hss
    rw [List.flatMap_cons, thunksFrom_definitions hss.1.name, ih hss.2, List.map_cons]

end

/-! ### Agreement -/

section
variable {table : String} {ss : List Signature}

/-- What is passed are the parameters by their names. -/
theorem passed_eq (s : Signature) :
    ((threadName :: s.arguments.mapIdx Thunk.passed).map fun argument => [CToken.word argument]) =
      (prototypeFor s).parameters.map fun q => [.word q.name] := by
  have hpassed : ∀ index arg, Thunk.passed index arg = (parameterFor index arg).name := by
    intro index arg
    cases arg <;> rfl
  have hnames : s.arguments.mapIdx Thunk.passed =
      (s.arguments.mapIdx parameterFor).map Named.name := by
    rw [← List.map_id (s.arguments.mapIdx Thunk.passed)]
    exact map_mapIdx_congr hpassed s.arguments
  rw [List.map_cons, hnames, List.map_map]
  rfl

/-- The variables of arguments are none of the others. -/
theorem not_mem_of_argumentName {index : Nat} {args : List Argument} {name : String}
    (h : name ∈ (Thunk.argumentVariables index args).map Named.name) :
    name ∉ ["objects", "frame", "native_frame", "result"] := by
  obtain ⟨i, -, rfl⟩ := exists_argumentName h
  have hhead : (argumentName i).toList.head? = some 'a' := by simp [argumentName]
  have hothers : ∀ name ∈ ["objects", "frame", "native_frame", "result"],
      name.toList.head? ≠ some 'a' := by simp
  exact fun hmem => hothers _ hmem hhead

/-- The variables that are declared before the call. -/
theorem names_linesBefore {s : Signature} (h : IsIdentifier s.name) :
    ((Thunk.linesBefore s).filterMap variableOf?).map (fun found => found.1.name) =
      ["objects", "frame", "native_frame"] ++
        (Thunk.argumentVariables 0 s.arguments).map Named.name := by
  have hname : tokens s.name = [.word s.name] := tokens_eq_word h.ne_empty h.parts
  obtain ⟨pulling, hlines, hpulls⟩ := Thunk.linesBefore_eq s
  rw [hlines, List.filterMap_append, List.map_append, Thunk.variableOf?_setUp hname,
    hpulls.declares, List.map_map]
  rfl

/-- After the call, nothing is declared. -/
theorem declares_linesAfter (s : Signature) : (Thunk.linesAfter s).filterMap variableOf? = [] :=
  List.filterMap_eq_nil_iff.mpr fun ts hts => (Thunk.quiet_linesAfter s ts hts).declares

/-- From the call on, only its result is declared. -/
theorem names_from_call (s : Signature) :
    ((Thunk.callLine s :: Thunk.linesAfter s).filterMap variableOf?).map
      (fun found => found.1.name) = if UsesResult s then ["result"] else [] := by
  have hcall := Thunk.variableOf?_callLine s
  split
  · rename_i huses
    rw [if_pos huses] at hcall
    obtain ⟨found, hfound, hresult⟩ := Option.map_eq_some_iff.mp hcall
    rw [List.filterMap_cons_some hfound, declares_linesAfter, List.map_singleton, hresult]
  · rename_i hunused
    rw [if_neg hunused] at hcall
    rw [List.filterMap_cons_none (Option.map_eq_none_iff.mp hcall), declares_linesAfter]
    rfl

theorem nodup_names {s : Signature} (h : IsIdentifier s.name) :
    (((Thunk.linesBefore s ++ Thunk.callLine s :: Thunk.linesAfter s).filterMap variableOf?).map
      fun found => found.1.name).Nodup := by
  have hresult : ∀ name ∈ if UsesResult s then ["result"] else [], name = "result" := by
    split <;> simp
  have hnodup : (if UsesResult s then ["result"] else []).Nodup := by
    split <;> simp
  rw [List.filterMap_append, List.map_append, names_linesBefore h, names_from_call,
    List.append_assoc]
  refine List.nodup_append.mpr ⟨by simp, List.nodup_append.mpr
    ⟨nodup_argumentVariables 0 s.arguments, hnodup, ?_⟩, ?_⟩
  · rintro name hargument _ hother rfl
    exact not_mem_of_argumentName hargument (by simp [hresult name hother])
  · rintro name hframe _ hother rfl
    rcases List.mem_append.mp hother with hother | hother
    · refine not_mem_of_argumentName hother ?_
      simp only [List.mem_cons, List.not_mem_nil, or_false] at hframe ⊢
      tauto
    · rw [hresult name hother] at hframe
      simp at hframe

theorem callsAsDeclared {s : Signature} (h : IsIdentifier s.name) :
    CallsAsDeclared s (prototypeFor s) (Thunk.linesBefore s) (Thunk.callLine s)
      (Thunk.linesAfter s) := by
  have hname : tokens s.name = [.word s.name] := tokens_eq_word h.ne_empty h.parts
  have hafter := Thunk.quiet_linesAfter s
  obtain ⟨pulling, hlines, hpulls⟩ := Thunk.linesBefore_eq s
  have hsetUp := Thunk.foreign_setUp (t := Thunk.ofSignature s) hname
  refine { passed := ?passed, once := ?once, pulled := ?pulled, cursor := ?cursor,
           distinct := nodup_names h, result := Thunk.variableOf?_callLine s,
           no_other_result := ?no_other_result, used := Thunk.exists_mem_linesAfter s }
  case passed =>
    exact (Thunk.callsOf_callLine s).trans (congrArg (fun found => [found]) (passed_eq s))
  case once =>
    rw [hlines]
    simp only [List.forall_mem_append]
    exact ⟨⟨fun ts hts => callsOf_nativeName (hsetUp ts hts).native s.name,
      fun ts hts => callsOf_nativeName (hpulls.native ts hts) s.name⟩,
      fun ts hts => callsOf_nativeName (hafter ts hts).native s.name⟩
  case pulled =>
    have hnone : ((Thunk.setUp (Thunk.ofSignature s)).map fun l => tokens l.text).filter
        (fun ts => TakesCursor ts) = [] :=
      List.filter_eq_nil_iff.mpr fun ts hts => by simpa using (hsetUp ts hts).cursor
    have hparameters : (fun i => parameterFor (0 + i)) = parameterFor :=
      funext fun i => congrArg parameterFor (Nat.zero_add i)
    rw [hlines, List.filter_append, hnone, List.nil_append, hpulls.cursor, argumentVariables_eq,
      hparameters]
    rfl
  case cursor =>
    exact List.forall_mem_cons.mpr ⟨Thunk.not_takesCursor_callLine s,
      fun ts hts => (hafter ts hts).cursor⟩
  case no_other_result =>
    intro found hfound hresult
    rw [List.filterMap_append, declares_linesAfter, List.append_nil] at hfound
    have hmem := List.mem_map_of_mem (f := fun found : Named × List CToken => found.1.name) hfound
    rw [names_linesBefore h, hresult] at hmem
    rcases List.mem_append.mp hmem with hmem | hmem
    · simp at hmem
    · exact not_mem_of_argumentName hmem (by simp)

/-- The header has the prototypes of the signatures, in order, and the thunk of each signature in
the source calls the function as its prototype declares it. -/
theorem calls_agree (h : Table.parse table = .ok ss) :
    prototypesIn (rows (header ss)) = ss.map prototypeFor ∧
    (thunksIn (rows (source ss))).length = ss.length ∧
    ∀ (i : Nat) (s : Signature), ss[i]? = some s → ∃ before call after,
      (thunksIn (rows (source ss)))[i]? = some (s.name, before ++ call :: after) ∧
      CallsAsDeclared s (prototypeFor s) before call after := by
  have hss : ∀ s ∈ ss, s.Declarable := declarable_of_parse h
  rw [prototypesIn_header hss, thunksIn_source hss]
  refine ⟨rfl, List.length_map .., fun i s hs => ?_⟩
  have hname := (hss s (List.mem_of_getElem? hs)).name
  refine ⟨_, _, _, ?_, callsAsDeclared hname⟩
  rw [List.getElem?_map, hs]
  rfl

/-- A function that throws, with arguments of two types and a variadic one. -/
theorem calls_agree_throwing :
    Table.parse "throws void f(filc_ptr, int, ...);" =
      .ok [⟨"f", .void, true, [.value .filcPtr, .value .int, .variadic], []⟩] ∧
    prototypesIn (rows (header
      [⟨"f", .void, true, [.value .filcPtr, .value .int, .variadic], []⟩])) =
        [⟨[.word "filc_exception_and_void"], "filc_native_f",
          [⟨[.word "filc_thread", .mark '*'], "my_thread"⟩, ⟨[.word "filc_ptr"], "arg0"⟩,
            ⟨[.word "int"], "arg1"⟩, ⟨[.word "filc_ptr"], "args"⟩]⟩] ∧
    ∃ before call after,
      thunksIn (rows (source
        [⟨"f", .void, true, [.value .filcPtr, .value .int, .variadic], []⟩])) =
          [("f", before ++ call :: after)] ∧
      callsOf "filc_native_f" call =
        [[[.word "my_thread"], [.word "arg0"], [.word "arg1"], [.word "args"]]] := by
  have h : Table.parse "throws void f(filc_ptr, int, ...);" =
      .ok [⟨"f", .void, true, [.value .filcPtr, .value .int, .variadic], []⟩] := by
    with_unfolding_all rfl
  have hprototype : prototypeFor ⟨"f", .void, true, [.value .filcPtr, .value .int, .variadic], []⟩ =
      ⟨[.word "filc_exception_and_void"], "filc_native_f",
        [⟨[.word "filc_thread", .mark '*'], "my_thread"⟩, ⟨[.word "filc_ptr"], "arg0"⟩,
          ⟨[.word "int"], "arg1"⟩, ⟨[.word "filc_ptr"], "args"⟩]⟩ := by
    decide
  obtain ⟨hprototypes, hlength, hthunks⟩ := calls_agree h
  obtain ⟨before, call, after, hthunk, hcalls⟩ := hthunks 0 _ rfl
  obtain ⟨found, hfound⟩ := List.length_eq_one_iff.mp hlength
  have hpassed := hcalls.passed
  rw [hprototype] at hpassed
  rw [hfound] at hthunk
  refine ⟨h, hprototypes.trans (congrArg (fun p => [p]) hprototype), before, call, after, ?_,
    hpassed⟩
  rw [hfound]
  exact congrArg (fun found => [found]) (Option.some.inj hthunk)

end

end CapFixture.Forwarder
