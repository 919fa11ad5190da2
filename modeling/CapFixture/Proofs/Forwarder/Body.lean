import CapFixture.Proofs.Forwarder.Guards

/-!
# Reading function bodies

What single lines of C do: which variable they declare, which functions they call, and whether they
take an argument out of the buffer.

## Main definitions

- `variableOf?` — the variable that a line declares
- `callsOf` — what a line passes to a function
- `TakesCursor` — the line takes an argument out of the buffer
-/

namespace CapFixture.Forwarder

open Table

/-- A name with its type: a parameter, a variable, or a function with what it returns. -/
structure Named where
  type : List CToken
  name : String
  deriving DecidableEq, Repr

/-- A type with a name behind it. -/
def named? (ts : List CToken) : Option Named :=
  match ts.getLast? with
  | some (.word name) => if ts.dropLast = [] then none else some ⟨ts.dropLast, name⟩
  | _ => none

/-- Words and asterisks make up types. -/
def CToken.isOfType : CToken → Bool
  | word _ => true
  | mark c => c = '*'

/-- The variable that a line declares, with what follows its name. -/
def variableOf? (ts : List CToken) : Option (Named × List CToken) :=
  let rest := ts.dropWhile CToken.isOfType
  if ts.head? ≠ some (.word "return") ∧
      rest.head? ∈ [some (.mark '='), some (.mark '['), some (.mark ';')] then
    (named? (ts.takeWhile CToken.isOfType)).map fun found => (found, rest)
  else none

/-- What stands between the commas in front of a closing parenthesis. -/
def argumentsOf (ts : List CToken) : List (List CToken) :=
  (ts.takeWhile (· ≠ .mark ')')).splitOn (.mark ',')

/-- The functions that a line calls, each with what follows the parenthesis. -/
def calls : List CToken → List (String × List CToken)
  | [] => []
  | .word name :: .mark '(' :: inside => (name, inside) :: calls inside
  | _ :: rest => calls rest

/-- The names of the functions that a line calls. -/
def callees (ts : List CToken) : List String := (calls ts).map Prod.fst

/-- What a line passes to a function, for each call of it. -/
def callsOf (function : String) (ts : List CToken) : List (List (List CToken)) :=
  (calls ts).filterMap fun call => if call.1 = function then some (argumentsOf call.2) else none

/-- Passes the address of the cursor, whereby an argument is taken out of the buffer. -/
def TakesCursor (ts : List CToken) : Prop := [.mark '&', .word "args"] <:+: ts

instance : DecidablePred TakesCursor := fun ts =>
  inferInstanceAs (Decidable ([.mark '&', .word "args"] <:+: ts))

/-- The runtime function that takes a value of a type out of the buffer. -/
def getterOf (type : List CToken) : String :=
  if type = [.word "filc_ptr"] then "filc_ptr_get_next_ptr_with_manual_tracking"
  else "filc_ptr_get_next_" ++ "_".intercalate (type.filterMap CToken.word?)

/-- What follows the name of a variable that is set from the buffer. -/
def fromBuffer (type : List CToken) : List CToken :=
  [.mark '=', .word (getterOf type), .mark '(', .mark '&', .word "args", .mark ')', .mark ';']

/-! ### Declarations -/

section
variable {type rest : List CToken} {name : String} {c : Char}

theorem named?_append (hne : type ≠ []) : named? (type ++ [.word name]) = some ⟨type, name⟩ := by
  simp [named?, hne]

/-- A type ends with the name behind it. -/
theorem span_declaration (htype : ∀ t ∈ type, t.isOfType = true)
    (hc : (CToken.mark c).isOfType = false) :
    (type ++ .word name :: .mark c :: rest).takeWhile CToken.isOfType = type ++ [.word name] ∧
    (type ++ .word name :: .mark c :: rest).dropWhile CToken.isOfType = .mark c :: rest := by
  have hfront : ∀ t ∈ type ++ [.word name], t.isOfType = true :=
    List.forall_mem_append.mpr ⟨htype, List.forall_mem_singleton.mpr rfl⟩
  have hsplit : type ++ .word name :: .mark c :: rest =
      (type ++ [.word name]) ++ .mark c :: rest := by simp
  have hends : ∀ t ∈ (CToken.mark c :: rest).head?, t.isOfType = false := by
    intro t ht
    rw [← Option.some.inj ht]
    exact hc
  rw [hsplit]
  exact ⟨Text.takeWhile_run hfront hends, Text.dropWhile_run hfront hends⟩

/-- A type, a name, and then a value, a length or nothing. -/
theorem variableOf?_declaration (hne : type ≠ []) (htype : ∀ t ∈ type, t.isOfType = true)
    (hreturn : type.head? ≠ some (.word "return")) (hc : c ∈ ['=', '[', ';']) :
    variableOf? (type ++ .word name :: .mark c :: rest) =
      some (⟨type, name⟩, .mark c :: rest) := by
  have hmark : (CToken.mark c).isOfType = false := by
    rcases (by simpa using hc : c = '=' ∨ c = '[' ∨ c = ';') with rfl | rfl | rfl <;> rfl
  obtain ⟨htake, hdrop⟩ := @span_declaration type rest name c htype hmark
  have hhead : (type ++ .word name :: .mark c :: rest).head? = type.head? := by
    obtain ⟨t, ts, rfl⟩ := List.exists_cons_of_ne_nil hne
    rfl
  unfold variableOf?
  rw [htake, hdrop, hhead, if_pos ⟨hreturn, by simpa using hc⟩, named?_append hne]
  rfl

end

/-! ### Calls -/

section
variable {function name : String} {front rest ts : List CToken} {texts : List (List CToken)}

/-- What stands between commas is passed. -/
theorem argumentsOf_intercalate (hne : texts ≠ [])
    (htexts : ∀ text ∈ texts, .mark ',' ∉ text ∧ .mark ')' ∉ text) :
    argumentsOf ([CToken.mark ','].intercalate texts ++ .mark ')' :: rest) = texts := by
  have hinside : ∀ t ∈ [CToken.mark ','].intercalate texts, decide (t ≠ .mark ')') = true :=
    forall_mem_intercalate (by simp) fun text htext t ht =>
      decide_eq_true fun heq => (htexts text htext).2 (heq ▸ ht)
  rw [argumentsOf, List.takeWhile_append_of_pos hinside, List.takeWhile_cons_of_neg (by simp),
    List.append_nil]
  exact List.splitOn_intercalate _ (fun text htext => (htexts text htext).1) hne

/-- Nothing is called where no parenthesis is opened. -/
theorem calls_append (hfront : .mark '(' ∉ front) (h : rest.head? ≠ some (.mark '(')) :
    calls (front ++ rest) = calls rest := by
  induction front with
  | nil => rfl
  | cons t front ih =>
    rw [List.mem_cons, not_or] at hfront
    rw [List.cons_append, calls, ih hfront.2]
    intro name inside _ hopen
    cases front with
    | nil => exact h (congrArg List.head? hopen)
    | cons next front =>
      obtain ⟨rfl, -⟩ := List.cons.inj hopen
      exact hfront.2 (List.mem_cons_self ..)

theorem callees_append (hfront : .mark '(' ∉ front) (h : rest.head? ≠ some (.mark '(')) :
    callees (front ++ rest) = callees rest :=
  congrArg (List.map Prod.fst) (calls_append hfront h)

theorem calls_eq_nil (h : .mark '(' ∉ ts) : calls ts = [] := by
  have hall := @calls_append ts [] h (by simp)
  rwa [List.append_nil] at hall

theorem callees_eq_nil (h : .mark '(' ∉ ts) : callees ts = [] :=
  congrArg (List.map Prod.fst) (calls_eq_nil h)

end

/-- A line that takes nothing out of the buffer and calls no native function. -/
structure Foreign (ts : List CToken) : Prop where
  cursor : ¬ TakesCursor ts
  native : ∀ callee ∈ callees ts, after? "filc_native_" callee = none

/-- A line that declares nothing either. -/
structure Quiet (ts : List CToken) : Prop extends Foreign ts where
  declares : variableOf? ts = none

instance : DecidablePred Foreign := fun ts => decidable_of_iff
  (¬ TakesCursor ts ∧ ∀ callee ∈ callees ts, after? "filc_native_" callee = none)
  ⟨fun ⟨h₁, h₂⟩ => ⟨h₁, h₂⟩, fun ⟨h₁, h₂⟩ => ⟨h₁, h₂⟩⟩

instance : DecidablePred Quiet := fun ts => decidable_of_iff
  (Foreign ts ∧ variableOf? ts = none) ⟨fun ⟨h₁, h₂⟩ => ⟨h₁, h₂⟩, fun ⟨h₁, h₂⟩ => ⟨h₁, h₂⟩⟩

theorem callsOf_nativeName {ts : List CToken}
    (h : ∀ callee ∈ callees ts, after? "filc_native_" callee = none) (name : String) :
    callsOf (nativeName name) ts = [] := by
  rw [callsOf, List.filterMap_eq_nil_iff]
  intro call hcall
  refine if_neg fun heq => ?_
  have hnone := h call.1 (List.mem_map_of_mem hcall)
  rw [heq, nativeName, after?_append] at hnone
  cases hnone

theorem not_takesCursor {ts : List CToken} (h : .mark '&' ∉ ts) : ¬ TakesCursor ts :=
  fun hcursor => h (hcursor.subset (by simp))

end CapFixture.Forwarder
