import CapFixture.Files.Tree
import Std.Data.ExtTreeMap.Lemmas

/-!
# Names, entries and accesses of a file tree

What a name may be, what a change leaves alone, and what an access gives back.

## Main definitions

- `FileTree.IsName` — names that an entry can have
-/

namespace CapFixture.FileTree

/-- A name that an entry can have. -/
structure IsName (name : String) : Prop where
  ne_here : name ≠ "."
  ne_above : name ≠ ".."
  short : name.utf8ByteSize ≤ maxNameBytes

instance (name : String) : Decidable (IsName name) :=
  decidable_of_iff (name ≠ "." ∧ name ≠ ".." ∧ name.utf8ByteSize ≤ maxNameBytes)
    ⟨fun h => ⟨h.1, h.2.1, h.2.2⟩, fun h => ⟨h.ne_here, h.ne_above, h.short⟩⟩

variable {t changed : FileTree} {place place' rest : List String} {entry : Entry}
  {name contents : String} {cwd : List String} {p : Path} {error : FileError}

theorem IsName.isDots_eq_false (h : IsName name) : isDots name = false := by
  simp [isDots, h.ne_here, h.ne_above]

/-- A step into a directory. -/
theorem walk_cons (hplace : t.entry? place = some .directory) (h : IsName name) :
    t.walk place (name :: rest) = t.walk (place ++ [name]) rest := by
  simp [walk, requireDirectory, hplace, h.ne_here, h.ne_above, Nat.not_lt.mpr h.short, bind,
    Except.bind]

theorem getElem?_insert_ne (h : place ≠ place') :
    (t.insert place entry)[place']? = t[place']? := by
  rw [Std.ExtTreeMap.getElem?_insert, if_neg (by simpa using h)]

/-! ### Accesses -/

theorem access_makeDirectory_ok (h : t.makeDirectory cwd p = .ok changed) :
    (accessFrom cwd).makeDirectory p t = (.ok (), changed) := by
  simp only [accessFrom, update, h]

theorem access_makeDirectory_error (h : t.makeDirectory cwd p = .error error) :
    (accessFrom cwd).makeDirectory p t = (.error error, t) := by
  simp only [accessFrom, update, h]

theorem access_write_ok (h : t.write cwd p contents = .ok changed) :
    (accessFrom cwd).write p contents t = (.ok (), changed) := by
  simp only [accessFrom, update, h]

end CapFixture.FileTree
