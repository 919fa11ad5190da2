import CapFixture.Files.Access
import Std.Data.ExtTreeMap.Basic

/-!
# File trees

A file tree has all entries below the root, each under the names that lead to it. A path that does
not start at the root starts at the working directory. Two trees with the same entries are equal.

## Main definitions

- `FileTree` — the entries, found by `FileTree.entry?`
- `FileTree.walk` — where the steps of a path lead
- `FileTree.accessFrom`, `FileTree.access` — the tree as something to access files in, from any
  working directory and from the root
-/

namespace CapFixture

/-- What can stand in a directory. -/
inductive Entry where
  | directory
  | file (contents : String)
  deriving DecidableEq, Repr

/-- The contents of a file. A directory has none of its own. -/
def Entry.contents : Entry → String
  | .directory => ""
  | .file contents => contents

/-- The entries below the root, by the names on the way to them. -/
abbrev FileTree := Std.ExtTreeMap (List String) Entry

namespace FileTree

/-- The longest name that an entry can have, in bytes. -/
def maxNameBytes : Nat := 255

/-- What stands at a place. The root is a directory. -/
def entry? (t : FileTree) (place : List String) : Option Entry :=
  if place.isEmpty then some .directory else t[place]?

/-- Makes sure that a directory stands at a place. -/
def requireDirectory (t : FileTree) (place : List String) : Except FileError Unit :=
  match t.entry? place with
  | some .directory => .ok ()
  | some (.file _) => .error .notADirectory
  | none => .error .notFound

/-- Where the steps lead from a place. All places on the way are directories, but the last place
may be anything or nothing. -/
def walk (t : FileTree) (place : List String) : List String → Except FileError (List String)
  | [] => .ok place
  | step :: rest => do
    t.requireDirectory place
    if step = "." then t.walk place rest
    else if step = ".." then t.walk place.dropLast rest
    else if maxNameBytes < step.utf8ByteSize then throw .nameTooLong
    else t.walk (place ++ [step]) rest

/-- Where a path leads. A path without steps leads to the root or nowhere. -/
def locate (t : FileTree) (cwd : List String) (p : Path) : Except FileError (List String) :=
  if p.steps.isEmpty && !p.absolute then .error .notFound else t.walk (p.start cwd) p.steps

/-- The directory that the last step of a path is taken from, and that step. At the root it is a
step that stays there. -/
def locateParent (t : FileTree) (cwd : List String) (p : Path) :
    Except FileError (List String × String) :=
  match p.steps.getLast? with
  | some last => do
    let place ← t.walk (p.start cwd) p.steps.dropLast
    t.requireDirectory place
    return (place, last)
  | none => if p.absolute then .ok ([], ".") else .error .notFound

/-- Whether a step leads to a directory that is already there. -/
def isDots (step : String) : Bool := step == "." || step == ".."

/-- The contents of the file at a path. -/
def read (t : FileTree) (cwd : List String) (p : Path) : Except FileError String := do
  match t.entry? (← t.locate cwd p) with
  | none => throw .notFound
  | some .directory => throw .isADirectory
  | some (.file contents) => if p.trailingSlash then throw .notADirectory else return contents

/-- The tree with a file of these contents at the path. -/
def write (t : FileTree) (cwd : List String) (p : Path) (contents : String) :
    Except FileError FileTree := do
  let (place, last) ← t.locateParent cwd p
  if isDots last || p.trailingSlash then throw .isADirectory
  else if maxNameBytes < last.utf8ByteSize then throw .nameTooLong
  else if t.entry? (place ++ [last]) = some .directory then throw .isADirectory
  else return t.insert (place ++ [last]) (.file contents)

/-- The tree with a new directory at the path. -/
def makeDirectory (t : FileTree) (cwd : List String) (p : Path) : Except FileError FileTree := do
  let (place, last) ← t.locateParent cwd p
  if isDots last then throw .alreadyExists
  else if maxNameBytes < last.utf8ByteSize then throw .nameTooLong
  else if (t.entry? (place ++ [last])).isSome then throw .alreadyExists
  else return t.insert (place ++ [last]) .directory

def isDirectory (t : FileTree) (cwd : List String) (p : Path) : Bool :=
  match t.locate cwd p with
  | .ok place => t.entry? place == some .directory
  | .error _ => false

/-- Goes on with a changed tree, or with the same tree if it could not be changed. -/
def update (change : FileTree → Except FileError FileTree) :
    StateM FileTree (Except FileError Unit) := fun t =>
  match change t with
  | .ok changed => (.ok (), changed)
  | .error error => (.error error, t)

/-- The tree as something to access files in, for a program that runs in the directory `cwd`. -/
def accessFrom (cwd : List String) : FileAccess (StateM FileTree) where
  read p := fun t => (t.read cwd p, t)
  write p contents := update (·.write cwd p contents)
  makeDirectory p := update (·.makeDirectory cwd p)
  isDirectory p := fun t => (t.isDirectory cwd p, t)

/-- The same for a program that runs at the root. -/
abbrev access : FileAccess (StateM FileTree) := accessFrom []

/-- The text of a place, with a slash after a directory. -/
def placeText (place : List String) : Entry → String
  | .directory => "/".intercalate place ++ "/"
  | .file _ => "/".intercalate place

/-- All entries with their texts and contents, in the order of their texts. -/
def listing (t : FileTree) : List (String × String) :=
  (t.toList.map fun (place, entry) => (placeText place entry, entry.contents)).mergeSort
    fun a b => a.1 ≤ b.1

/-- The entries of a tree that were not the same before. -/
def changes (before after : FileTree) : FileTree :=
  after.filter fun place entry => before[place]? != some entry

/-- The tree with an entry and the directories above it. A text that ends in a slash stands for a
directory. -/
def add (t : FileTree) (text contents : String) : FileTree :=
  let p := Path.ofString text
  let above := (List.range p.steps.length).map fun n => p.steps.take n
  let t := above.foldl (fun t place =>
    if place.isEmpty then t else t.insertIfNew place .directory) t
  t.insert p.steps (if p.trailingSlash then .directory else .file contents)

end FileTree

end CapFixture
