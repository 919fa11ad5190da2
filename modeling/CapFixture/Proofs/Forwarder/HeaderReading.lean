import Mathlib.Data.List.Nodup
import CapFixture.Proofs.Forwarder.Calls

/-!
# Reading the header

From the header, all signatures are read back: a guard tells the symbols of the prototypes behind
it, and a prototype tells all else about its signature. So signatures that differ in anything have
different headers.

## Main definitions

- `Outcome` — what a native function returns and whether it can throw
- `signature?` — the signature whose prototype is given
- `signaturesIn` — the signatures that a header is about
-/

namespace CapFixture

/-! ### Results -/

namespace Result

theorem words_injective : Function.Injective words := by
  intro r r' h
  have hname : r.name = r'.name := by rw [← r.intercalate_words, h, r'.intercalate_words]
  have hfound := ofName?_name r
  rw [hname, ofName?_name] at hfound
  exact (Option.some.inj hfound).symm

/-- The words that the name in helpers is joined from. -/
def helperWords : Result → List String
  | void => ["void"]
  | value type => if type = .filcPtr then ["ptr"] else type.words

theorem intercalate_helperWords (r : Result) : "_".intercalate r.helperWords = r.helperName := by
  cases r with
  | void => decide
  | value type =>
    by_cases h : type = .filcPtr
    · subst h
      decide
    · rw [helperWords, if_neg h, helperName, type.helperName_eq h]

theorem helperName_injective : Function.Injective helperName := by
  have hnodup : ((void :: ValueType.all.map value).map fun r =>
      "_".intercalate r.helperWords).Nodup := by decide
  have hall : ∀ r, r ∈ void :: ValueType.all.map value := by
    intro r
    cases r <;> simp [ValueType.mem_all]
  intro r r' h
  rw [← r.intercalate_helperWords, ← r'.intercalate_helperWords] at h
  exact List.inj_on_of_nodup_map hnodup (hall r) (hall r') h

end Result

namespace Forwarder

open Table

/-- What a native function returns, and whether it can throw. -/
structure Outcome where
  throws : Bool
  result : Result
  deriving DecidableEq, Repr

namespace Outcome

def all : List Outcome :=
  [false, true].flatMap fun throws => (.void :: ValueType.all.map .value).map fun result =>
    ⟨throws, result⟩

/-- The words that it is spelled with. -/
def words (o : Outcome) : List String :=
  if o.throws then ["filc_exception_and_" ++ o.result.helperName] else o.result.words

end Outcome

/-- The type that is spelled with these words. -/
def valueType? (ts : List CToken) : Option ValueType :=
  ValueType.all.find? fun t => t.words.map .word = ts

/-- What is returned where the return type is spelled with these words. -/
def outcome? (ts : List CToken) : Option Outcome :=
  Outcome.all.find? fun o => o.words.map .word = ts

/-- The argument that a parameter stands for. Only a variadic one is passed as the cursor. -/
def argument? (q : Named) : Option Argument :=
  if q.name = cursorName then some .variadic else (valueType? q.type).map .value

/-- The signature whose prototype is given, which exists where some symbols are defined. The first
parameter is the calling thread. -/
def signature? (defines : List String) (p : CPrototype) : Option Signature := do
  let name ← after? "filc_native_" p.function
  let outcome ← outcome? p.result
  let arguments ← p.parameters.tail.mapM argument?
  return ⟨name, outcome.result, outcome.throws, arguments, defines⟩

/-- The signatures whose prototypes are in the lines, and nothing if guards are not paired.
`guards` are the symbols of the guards that are open, innermost first. -/
def signaturesFrom (guards : List (List String)) : List Row → Option (List Signature)
  | [] => if guards.isEmpty then some [] else none
  | row :: rest =>
    match row.role, guards with
    | .opens symbols, _ => signaturesFrom (symbols :: guards) rest
    | .closes, _ :: outer => signaturesFrom outer rest
    | .text, _ =>
      match prototype? row.tokens with
      | none => signaturesFrom guards rest
      | some p => do
        let s ← signature? guards.reverse.flatten p
        let ss ← signaturesFrom guards rest
        return s :: ss
    | _, _ => none

/-- The signatures that a header is about. -/
def signaturesIn (text : String) : Option (List Signature) := signaturesFrom [] (rows text)

/-! ### What is looked for -/

/-- What is looked for by a key of its own is found. -/
theorem find?_of_injective {α β : Type} [DecidableEq β] {key : α → β} {as : List α} {a : α}
    (hkey : Function.Injective key) (h : a ∈ as) :
    as.find? (fun b => key b = key a) = some a := by
  cases hfound : as.find? (fun b => key b = key a) with
  | none => simpa using List.find?_eq_none.mp hfound a h
  | some b => exact congrArg some (hkey (by simpa using List.find?_some hfound))

theorem map_word_injective : Function.Injective (List.map CToken.word) :=
  List.map_injective_iff.mpr fun _ _ => CToken.word.inj

theorem valueType?_words (t : ValueType) : valueType? (t.words.map .word) = some t := by
  have hwords : Function.Injective fun t : ValueType => t.words.map CToken.word := fun t t' h =>
    Result.value.inj (@Result.words_injective (.value t) (.value t') (map_word_injective h))
  exact find?_of_injective hwords t.mem_all

namespace Outcome

theorem mem_all (o : Outcome) : o ∈ all := by
  obtain ⟨throws, result⟩ := o
  cases throws <;> cases result <;> simp [all, ValueType.mem_all]

/-- No type is spelled like what comes with an exception. -/
theorem after?_exception (r : Result) :
    ∀ word ∈ r.words, after? "filc_exception_and_" word = none := by
  cases r with
  | void => decide
  | value type => cases type <;> decide

theorem words_ne_exception (r r' : Result) :
    r.words ≠ ["filc_exception_and_" ++ r'.helperName] := by
  intro h
  have hnone := after?_exception r ("filc_exception_and_" ++ r'.helperName) (by simp [h])
  rw [after?_append] at hnone
  cases hnone

theorem words_injective : Function.Injective words := by
  rintro ⟨throws, r⟩ ⟨throws', r'⟩ h
  cases throws <;> cases throws' <;> simp only [words, if_true, Bool.false_eq_true, if_false] at h
  · rw [Result.words_injective h]
  · exact absurd h (words_ne_exception r r')
  · exact absurd h.symm (words_ne_exception r' r)
  · have hname : r.helperName = r'.helperName := by simpa using h
    rw [Result.helperName_injective hname]

end Outcome

theorem outcome?_nativeResult (s : Signature) :
    outcome? (tokens s.nativeResult) = some ⟨s.throws, s.result⟩ := by
  rw [tokens_nativeResult]
  exact find?_of_injective (map_word_injective.comp Outcome.words_injective)
    (Outcome.mem_all ⟨s.throws, s.result⟩)

/-! ### Prototypes -/

theorem argument?_parameterFor (index : Nat) (arg : Argument) :
    argument? (parameterFor index arg) = some arg := by
  cases arg with
  | value type =>
    have hname : (parameterFor index (.value type)).name ≠ cursorName :=
      argumentName_ne_cursorName index
    rw [argument?, if_neg hname, parameterFor, tokens_typeName, valueType?_words]
    rfl
  | variadic => exact if_pos rfl

theorem mapM_argument?_parameters (args : List Argument) :
    (args.mapIdx parameterFor).mapM argument? = some args := by
  -- the parameters are numbered from the first one on, and the rest of them from a later one
  suffices h : ∀ first, (args.mapIdx fun i => parameterFor (first + i)).mapM argument? =
      some args by
    simpa using h 0
  intro first
  induction args generalizing first with
  | nil => rfl
  | cons arg args ih =>
    rw [mapIdx_parameterFor_cons, List.mapM_cons, argument?_parameterFor, ih]
    rfl

/-- A prototype tells all of its signature but the symbols. -/
theorem signature?_prototypeFor (s : Signature) :
    signature? s.defines (prototypeFor s) = some s := by
  have hname : after? "filc_native_" (prototypeFor s).function = some s.name :=
    after?_append "filc_native_" s.name
  have hresult : outcome? (prototypeFor s).result = some ⟨s.throws, s.result⟩ :=
    outcome?_nativeResult s
  have harguments : (prototypeFor s).parameters.tail.mapM argument? = some s.arguments :=
    mapM_argument?_parameters s.arguments
  rw [signature?, hname, hresult, harguments]
  rfl

/-! ### Lines -/

section
variable {row : Row} {rest : List Row} {symbols : List String} {guards : List (List String)}
  {s : Signature}

theorem signaturesFrom_opens (h : row.role = .opens symbols) :
    signaturesFrom guards (row :: rest) = signaturesFrom (symbols :: guards) rest := by
  rw [signaturesFrom.eq_def]
  simp only [h]

theorem signaturesFrom_closes (h : row.role = .closes) :
    signaturesFrom (symbols :: guards) (row :: rest) = signaturesFrom guards rest := by
  rw [signaturesFrom.eq_def]
  simp only [h]

theorem signaturesFrom_isSilent (h : row.IsSilent) :
    signaturesFrom guards (row :: rest) = signaturesFrom guards rest := by
  rw [signaturesFrom.eq_def]
  simp only [h.role, prototype?_of_isSilent h]

theorem signaturesFrom_append_isSilent {front : List Row} (h : ∀ row ∈ front, row.IsSilent) :
    signaturesFrom guards (front ++ rest) = signaturesFrom guards rest := by
  induction front with
  | nil => rfl
  | cons row front ih =>
    rw [List.forall_mem_cons] at h
    rw [List.cons_append, signaturesFrom_isSilent h.1, ih h.2]

/-- A prototype is read as its signature, which has the symbols of the guards around it. -/
theorem signaturesFrom_declaration (hname : OneWord s.name)
    (hguards : guards.reverse.flatten = s.defines) :
    signaturesFrom guards ((declaration s).map rowOf ++ rest) =
      (signaturesFrom guards rest).map (s :: ·) := by
  have hrole : (rowOf ⟨0, "PAS_API " ++ (Prototype.ofSignature s).render⟩).role = .text :=
    role_of_plain (plainCode_line.mp (plainCode_declaration hname))
  have hprototype : prototype? (rowOf ⟨0, "PAS_API " ++ (Prototype.ofSignature s).render⟩).tokens =
      some (prototypeFor s) := prototype?_declaration hname
  rw [declaration, Code.line, List.map_singleton, List.singleton_append, signaturesFrom.eq_def]
  simp only [hrole, hprototype, hguards, signature?_prototypeFor]
  cases signaturesFrom guards rest <;> rfl

/-- The code about a signature is read as this signature, with or without a guard around it. -/
theorem signaturesFrom_guarded (hs : s.NamedByWords) :
    signaturesFrom [[]] ((guarded s.defines (declaration s)).map rowOf ++ rest) =
      (signaturesFrom [[]] rest).map (s :: ·) := by
  by_cases hne : s.defines = []
  · rw [hne, guarded_nil, signaturesFrom_declaration hs.name.parts (by simp [hne])]
  · rw [rows_guarded hne, List.cons_append, signaturesFrom_opens (role_opening hne hs.defines),
      List.append_assoc, signaturesFrom_declaration hs.name.parts (by simp),
      List.singleton_append, signaturesFrom_closes (role_closing s.defines)]

end

/-! ### Headers -/

section
variable {ss ts : List Signature}

/-- The code about some signatures is read as these, in their order. -/
theorem signaturesFrom_emitted {rest : List Row} (hss : ∀ s ∈ ss, s.NamedByWords) :
    signaturesFrom [[]] ((ss.flatMap fun s => guarded s.defines (declaration s)).map rowOf ++
      rest) = (signaturesFrom [[]] rest).map (ss ++ ·) := by
  induction ss with
  | nil => simp
  | cons s ss ih =>
    rw [List.forall_mem_cons] at hss
    rw [List.flatMap_cons, List.map_append, List.append_assoc, signaturesFrom_guarded hss.1,
      ih hss.2, Option.map_map]
    rfl

theorem signaturesIn_header (hss : ∀ s ∈ ss, s.NamedByWords) :
    signaturesIn (header ss) = some ss := by
  obtain ⟨first, opening, front, closing, hrows, hfirst, hopening, hfront, hclosing⟩ :=
    rows_header_of_words hss
  have hend : signaturesFrom [] [] = some [] := rfl
  rw [signaturesIn, hrows, signaturesFrom_isSilent hfirst, signaturesFrom_opens hopening,
    signaturesFrom_append_isSilent hfront, signaturesFrom_emitted hss,
    signaturesFrom_closes hclosing, hend, Option.map_some, List.append_nil]

/-- The signatures are read back from the header, in their order and with all that they consist of,
so that different signatures have different headers. Their names and symbols may be any words of C,
and variadic arguments may stand anywhere. -/
theorem header_tells_signatures (hss : ∀ s ∈ ss, s.NamedByWords) (hts : ∀ t ∈ ts, t.NamedByWords) :
    signaturesIn (header ss) = some ss ∧ (ss ≠ ts → header ss ≠ header ts) := by
  refine ⟨signaturesIn_header hss, fun hne heq => hne ?_⟩
  have hread := signaturesIn_header hss
  rw [heq, signaturesIn_header hts] at hread
  exact (Option.some.inj hread).symm

/-- A pointer and a variadic argument have the same type in C and are told apart by the name. -/
theorem header_tells_pointer_from_variadic :
    signaturesIn (header [⟨"f", .value .unsignedLong, true, [.value .filcPtr], ["A", "B"]⟩]) =
      some [⟨"f", .value .unsignedLong, true, [.value .filcPtr], ["A", "B"]⟩] ∧
    header [⟨"f", .value .unsignedLong, true, [.value .filcPtr], ["A", "B"]⟩] ≠
      header [⟨"f", .value .unsignedLong, true, [.variadic], ["A", "B"]⟩] := by
  have hpointer : ∀ s ∈ [(⟨"f", .value .unsignedLong, true, [.value .filcPtr], ["A", "B"]⟩ :
      Signature)], s.NamedByWords :=
    List.forall_mem_singleton.mpr ⟨by decide, by decide⟩
  have hvariadic : ∀ s ∈ [(⟨"f", .value .unsignedLong, true, [.variadic], ["A", "B"]⟩ :
      Signature)], s.NamedByWords :=
    List.forall_mem_singleton.mpr ⟨by decide, by decide⟩
  obtain ⟨hread, htold⟩ := header_tells_signatures hpointer hvariadic
  exact ⟨hread, htold (by decide)⟩

end

end Forwarder

end CapFixture
