/-!
# Paths

A path leads through directories to an entry. It keeps the steps `.` and `..`, because where they
lead depends on what is there, but no empty steps.

## Main definitions

- `Path.ofString`, `Path.render` — paths as texts
- `Path.start` — where a path starts
- `Path.join`, `Path.parent?` — one path after another, and the path without its last step
-/

namespace CapFixture

structure Path where
  /-- Whether the path starts at the root of everything. -/
  absolute : Bool
  steps : List String
  /-- Whether a slash at the end says that the entry is a directory. -/
  trailingSlash : Bool
  deriving DecidableEq, Repr, Inhabited

namespace Path

/-- The path without steps. -/
def here : Path := ⟨false, [], false⟩

/-- The path that a text writes. -/
def ofString (s : String) : Path :=
  let steps := ((s.toList.splitOn '/').map String.ofList).filter (!·.isEmpty)
  ⟨s.toList.head? == some '/', steps, s.toList.getLast? == some '/' && !steps.isEmpty⟩

def render (p : Path) : String :=
  (if p.absolute then "/" else "") ++ "/".intercalate p.steps ++
    (if p.trailingSlash then "/" else "")

/-- Where a path starts for a program that runs in the directory `cwd`. -/
def start (p : Path) (cwd : List String) : List String := if p.absolute then [] else cwd

/-- Goes on from `p` along `q`, unless `q` starts at the root. -/
def join (p q : Path) : Path :=
  if q.absolute then q
  else ⟨p.absolute, p.steps ++ q.steps, q.trailingSlash || (q.steps.isEmpty && !p.steps.isEmpty)⟩

/-- The steps that change the place, and a `.` that a relative path starts with. -/
def components (p : Path) : List String :=
  match p.steps with
  | [] => []
  | first :: rest =>
    if first = "." ∧ p.absolute then rest.filter (· != ".")
    else first :: rest.filter (· != ".")

/-- The path without its last component, if it has one. -/
def parent? (p : Path) : Option Path :=
  match p.components with
  | [] => none
  | first :: rest => some ⟨p.absolute, (first :: rest).dropLast, false⟩

theorem length_components_le (p : Path) : p.components.length ≤ p.steps.length := by
  unfold components
  split
  · exact Nat.zero_le _
  · rename_i first rest steps
    have shorter := List.length_filter_le (· != ".") rest
    rw [steps]
    split
    · exact Nat.le_succ_of_le shorter
    · exact Nat.succ_le_succ shorter

/-- The parent is a shorter path. -/
theorem length_steps_of_parent? {p q : Path} (h : p.parent? = some q) :
    q.steps.length < p.steps.length := by
  have bound := p.length_components_le
  unfold parent? at h
  split at h
  · contradiction
  · rename_i first rest components
    rw [components] at bound
    cases h
    simp only [List.length_dropLast, List.length_cons] at bound ⊢
    omega

end Path

end CapFixture
