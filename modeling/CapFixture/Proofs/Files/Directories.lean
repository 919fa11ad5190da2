import CapFixture.Proofs.Files.Places

/-!
# Making directories

Making the directories that a path needs only adds directories, where nothing stood and on the way
of the path. So whatever could be read before is read afterwards, even if not all of them could be
made.

## Main definitions

- `FileTree.file?` — the contents of the file at a place
- `FileTree.Widens` — a tree with more directories
-/

namespace CapFixture

/-! ### Making directories -/

namespace FileAccess

variable {m : Type → Type} [Monad m]

/-- The answer for a directory that cannot be made: it may be there already. -/
def tolerate (access : FileAccess m) (p : Path) (error : FileError) :
    m (Except FileError Unit) := do
  if ← access.isDirectory p then return .ok () else return .error error

/-- Makes the directories above one, and then that one. -/
def makeAfterParent (access : FileAccess m) (p : Path) : m (Except FileError Unit) :=
  match p.parent? with
  | none => return .error (.other "failed to create whole tree")
  | some parent => do
    match ← access.makeDirectories parent with
    | .error error => return .error error
    | .ok () =>
      match ← access.makeDirectory p with
      | .ok () => return .ok ()
      | .error error => access.tolerate p error

theorem makeDirectories_eq_attempt (access : FileAccess m) (p : Path) :
    access.makeDirectories p =
      if p = .here then pure (.ok ())
      else
        access.makeDirectory p >>= fun
          | .ok () => pure (.ok ())
          | .error .notFound => access.makeAfterParent p
          | .error error => access.tolerate p error := by
  rw [makeDirectories]
  refine if_congr Iff.rfl rfl (bind_congr fun answer => ?_)
  rcases answer with error | _
  · cases error with
    | notFound =>
      unfold makeAfterParent
      dsimp only
      split
      · next hparent => rw [hparent]
      · next parent hparent =>
        split
        · next hnone => cases hparent.symm.trans hnone
        · next parent' hparent' =>
          obtain rfl := Option.some.inj (hparent.symm.trans hparent')
          rfl
    | _ => rfl
  · rfl

/-- Makes the directories above what a path leads to. -/
def makeAbove (access : FileAccess m) (p : Path) : m (Except FileError Unit) :=
  match p.parent? with
  | none => pure (.ok ())
  | some parent => access.makeDirectories parent

end FileAccess

namespace FileTree

/-- The contents of the file at a place. -/
def file? (t : FileTree) (place : List String) : Option String :=
  match t[place]? with
  | some (.file contents) => some contents
  | _ => none

/-- All entries stay, and what is new are directories at admitted places. -/
def Widens (admitted : List String → Prop) (t wider : FileTree) : Prop :=
  ∀ place, wider[place]? = t[place]? ∨
    t[place]? = none ∧ wider[place]? = some .directory ∧ admitted place

variable {t made wider after : FileTree} {place : List String} {admitted : List String → Prop}
  {cwd : List String} {p : Path}
  {contents : String} {error : FileError}

/-! ### Reading files -/

/-- What a path leads to stays in reach while directories stay. -/
theorem entry_mono
    (hkept : ∀ place : List String, t[place]? = some .directory → wider[place]? = some .directory)
    (place : List String) (h : t.entry? place = some .directory) :
    wider.entry? place = some .directory := by
  by_cases hplace : place = []
  · rw [hplace]
    rfl
  · rw [entry_eq_getElem? hplace] at h ⊢
    exact hkept place h

/-- A file is read where its path leads. -/
theorem read_eq_ok_iff_file? :
    t.read cwd p = .ok contents ↔ t.locate cwd p = .ok (p.place cwd) ∧ p.trailingSlash = false ∧
      p.place cwd ≠ [] ∧ t.file? (p.place cwd) = some contents := by
  rw [read, bind_eq_ok_iff]
  constructor
  · rintro ⟨place, hlocate, h⟩
    obtain rfl := eq_place_of_locate hlocate
    have hne : p.place cwd ≠ [] := by
      intro hplace
      rw [hplace] at h
      cases h
    rw [entry_eq_getElem? hne] at h
    refine ⟨hlocate, ?_⟩
    split at h
    · cases h
    · cases h
    · next found hfound =>
      split at h
      · cases h
      · next hslash =>
        cases h
        exact ⟨by simpa using hslash, hne, by rw [file?, hfound]⟩
  · rintro ⟨hlocate, hslash, hne, hfile⟩
    refine ⟨p.place cwd, hlocate, ?_⟩
    rw [entry_eq_getElem? hne]
    unfold file? at hfile
    split at hfile
    · next hfound =>
      cases hfile
      rw [hfound]
      dsimp only
      rw [if_neg (by simp [hslash])]
      rfl
    · cases hfile

theorem getElem?_write_self (h : t.write cwd p contents = .ok after) :
    after[p.place cwd]? = some (.file contents) := by
  obtain ⟨_, _, _, _, rfl⟩ := write_ok h
  exact Std.ExtTreeMap.getElem?_insert_self

/-- Nothing changes but the file that is written. -/
theorem getElem?_write_ne (h : t.write cwd p contents = .ok after) (hplace : p.place cwd ≠ place) :
    after[place]? = t[place]? := by
  obtain ⟨_, _, _, _, rfl⟩ := write_ok h
  exact getElem?_insert_ne hplace

theorem directory_write (h : t.write cwd p contents = .ok after)
    (hplace : t[place]? = some .directory) : after[place]? = some .directory := by
  obtain ⟨_, _, hne, hfree, _⟩ := write_ok h
  rw [getElem?_write_ne h ?_, hplace]
  rintro rfl
  exact hfree (by rw [entry_eq_getElem? hne, hplace])

/-- What was written is read back. -/
theorem read_write (h : t.write cwd p contents = .ok after) : after.read cwd p = .ok contents := by
  obtain ⟨hlocate, hslash, hne, _⟩ := write_ok h
  have hkept := entry_mono fun _ => directory_write h
  exact read_eq_ok_iff_file?.mpr
    ⟨locate_mono hkept hlocate, hslash, hne, by rw [file?, getElem?_write_self h]⟩

/-! ### More directories -/

namespace Widens

theorem refl (admitted : List String → Prop) (t : FileTree) : Widens admitted t t :=
  fun _ => .inl rfl

theorem mono {admitted' : List String → Prop} (h : Widens admitted t wider)
    (hadmitted : ∀ place, admitted place → admitted' place) : Widens admitted' t wider :=
  fun place => (h place).imp_right fun ⟨hfree, hnew, hplace⟩ =>
    ⟨hfree, hnew, hadmitted place hplace⟩

theorem trans (h : Widens admitted t made) (h' : Widens admitted made wider) :
    Widens admitted t wider := by
  intro place
  rcases h' place with hsame | ⟨hfree, hnew, hplace⟩
  · rw [hsame]
    exact h place
  · rcases h place with hsame | ⟨_, hdirectory, _⟩
    · exact .inr ⟨hsame ▸ hfree, hnew, hplace⟩
    · rw [hfree] at hdirectory
      cases hdirectory

/-- A directory is made only where nothing stands. -/
theorem of_makeDirectory (h : t.makeDirectory cwd p = .ok made)
    (hadmitted : admitted (p.place cwd)) :
    Widens admitted t made := by
  obtain ⟨_, hfree, rfl⟩ := makeDirectory_ok h
  intro place
  by_cases heq : p.place cwd = place
  · exact .inr ⟨heq ▸ hfree, heq ▸ Std.ExtTreeMap.getElem?_insert_self, heq ▸ hadmitted⟩
  · exact .inl (getElem?_insert_ne heq)

theorem directory (h : Widens admitted t wider) (ht : t[place]? = some .directory) :
    wider[place]? = some .directory := by
  rcases h place with hsame | ⟨hfree, _⟩
  · rw [hsame, ht]
  · cases ht.symm.trans hfree

theorem file?_eq (h : Widens admitted t wider) (place : List String) :
    wider.file? place = t.file? place := by
  rcases h place with hsame | ⟨hfree, hnew, _⟩
  · rw [file?, file?, hsame]
  · rw [file?, file?, hfree, hnew]

end Widens

/-- What is read stays, since its directories do. -/
theorem Widens.read_eq (h : Widens admitted t wider) (hread : t.read cwd p = .ok contents) :
    wider.read cwd p = .ok contents := by
  obtain ⟨hlocate, hslash, hne, hfile⟩ := read_eq_ok_iff_file?.mp hread
  have hkept := entry_mono fun _ => h.directory
  exact read_eq_ok_iff_file?.mpr
    ⟨locate_mono hkept hlocate, hslash, hne, (h.file?_eq (p.place cwd)).trans hfile⟩

theorem snd_tolerate (cwd : List String) (p : Path) (error : FileError) (t : FileTree) :
    ((accessFrom cwd).tolerate p error t).2 = t := by
  have hanswer : (accessFrom cwd).isDirectory p t = (t.isDirectory cwd p, t) := rfl
  simp only [FileAccess.tolerate, bind, StateT.bind, hanswer]
  cases t.isDirectory cwd p <;> rfl

theorem widens_makeAfterParent
    (hparent : ∀ parent, p.parent? = some parent →
      Widens (p.Crosses cwd) t ((accessFrom cwd).makeDirectories parent t).2) :
    Widens (p.Reaches cwd) t ((accessFrom cwd).makeAfterParent p t).2 := by
  unfold FileAccess.makeAfterParent
  cases hp : p.parent? with
  | none => exact .refl _ t
  | some parent =>
    have habove : Widens (p.Reaches cwd) t _ := (hparent parent hp).mono fun _ => .inl
    rcases hmade : (accessFrom cwd).makeDirectories parent t with ⟨error | _, above⟩
    · rw [hmade] at habove
      simp only [bind, StateT.bind, hmade]
      exact habove
    · rw [hmade] at habove
      refine habove.trans ?_
      cases hmake : above.makeDirectory cwd p with
      | ok made =>
        simp only [bind, StateT.bind, hmade, access_makeDirectory_ok hmake]
        exact .of_makeDirectory hmake (.inr rfl)
      | error error =>
        simp only [bind, StateT.bind, hmade, access_makeDirectory_error hmake, snd_tolerate]
        exact .refl _ above

/-- Only directories are made, where the path leads and on the way there. -/
theorem widens_makeDirectories (cwd : List String) (p : Path) (t : FileTree) :
    Widens (p.Reaches cwd) t ((accessFrom cwd).makeDirectories p t).2 := by
  -- the parent is shorter, and what it reaches the path crosses
  have hparent : ∀ parent, p.parent? = some parent →
      Widens (p.Crosses cwd) t ((accessFrom cwd).makeDirectories parent t).2 :=
    fun parent hparent =>
      (widens_makeDirectories cwd parent t).mono fun _ => Path.Crosses.of_parent? hparent
  rw [FileAccess.makeDirectories_eq_attempt]
  split
  · exact .refl _ t
  · cases hmake : t.makeDirectory cwd p with
    | ok made =>
      simp only [bind, StateT.bind, access_makeDirectory_ok hmake]
      exact .of_makeDirectory hmake (.inr rfl)
    | error error =>
      simp only [bind, StateT.bind, access_makeDirectory_error hmake]
      cases error with
      | notFound => exact widens_makeAfterParent hparent
      | _ =>
        dsimp only
        rw [snd_tolerate]
        exact .refl _ t
termination_by p.steps.length
decreasing_by exact Path.length_steps_of_parent? hparent

theorem widens_makeAbove (cwd : List String) (p : Path) (t : FileTree) :
    Widens (p.Crosses cwd) t ((accessFrom cwd).makeAbove p t).2 := by
  unfold FileAccess.makeAbove
  cases hparent : p.parent? with
  | none => exact .refl _ t
  | some parent =>
    exact (widens_makeDirectories cwd parent t).mono fun _ => Path.Crosses.of_parent? hparent

end FileTree

end CapFixture
