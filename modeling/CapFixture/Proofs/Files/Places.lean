import CapFixture.Proofs.Files.Path
import CapFixture.Proofs.Files.Tree
import CapFixture.Proofs.Results

/-!
# Where paths lead

Where a path leads to depends on the path and the working directory alone, as long as directories
stand on the way. A tree with more directories has the same paths leading to the same places, and
more of them.

## Main definitions

- `FileTree.follow` — where steps lead from a place
- `Path.place` — where a path leads
- `Path.Crosses`, `Path.Reaches` — the places on the way, without and with the last
-/

namespace CapFixture

/-! ### Steps -/

namespace FileTree

/-- Where one step leads. -/
def enter (place : List String) (step : String) : List String :=
  if step = "." then place else if step = ".." then place.dropLast else place ++ [step]

/-- Where steps lead, if a directory stands wherever they come through. -/
def follow (place steps : List String) : List String := steps.foldl enter place

variable {t wider : FileTree} {place last front steps rest : List String} {step : String}

theorem follow_append (place front rest : List String) :
    follow place (front ++ rest) = follow (follow place front) rest :=
  List.foldl_append

/-- A step that stays leads nowhere else. -/
theorem follow_filter (place steps : List String) :
    follow place (steps.filter (· != ".")) = follow place steps := by
  induction steps generalizing place with
  | nil => rfl
  | cons step rest ih =>
    by_cases hstep : step = "."
    · rw [List.filter_cons_of_neg (by simp [hstep]), ih]
      exact congrArg (follow · rest) (if_pos hstep).symm
    · rw [List.filter_cons_of_pos (by simpa using hstep)]
      exact ih (enter place step)

theorem enter_of_isDots_eq_false (h : isDots step = false) (place : List String) :
    enter place step = place ++ [step] := by
  obtain ⟨hhere, habove⟩ : step ≠ "." ∧ step ≠ ".." := by simpa [isDots] using h
  rw [enter, if_neg hhere, if_neg habove]

/-- Names lead into one directory after the other. -/
theorem follow_names (h : ∀ step ∈ steps, isDots step = false) (place : List String) :
    follow place steps = place ++ steps := by
  induction steps generalizing place with
  | nil => exact (List.append_nil place).symm
  | cons step rest ih =>
    have hrest := ih (fun step hstep => h step (List.mem_cons_of_mem _ hstep)) (enter place step)
    rw [enter_of_isDots_eq_false (h step List.mem_cons_self)] at hrest
    rw [follow, List.foldl_cons, enter_of_isDots_eq_false (h step List.mem_cons_self)]
    exact hrest.trans (by simp)

/-! ### Walks -/

theorem requireDirectory_eq_ok_iff :
    t.requireDirectory place = .ok () ↔ t.entry? place = some .directory := by
  unfold requireDirectory
  split <;> simp_all

/-- A walk takes a step where a directory stands and the name, if it is one, is not too long. -/
theorem walk_cons_eq_ok_iff :
    t.walk place (step :: rest) = .ok last ↔
      t.entry? place = some .directory ∧
      (isDots step = true ∨ step.utf8ByteSize ≤ maxNameBytes) ∧
      t.walk (enter place step) rest = .ok last := by
  rw [walk, bind_eq_ok_iff]
  constructor
  · rintro ⟨_, hplace, h⟩
    refine ⟨requireDirectory_eq_ok_iff.mp hplace, ?_⟩
    by_cases hhere : step = "."
    · rw [if_pos hhere] at h
      exact ⟨.inl (by simp [isDots, hhere]), by rwa [enter, if_pos hhere]⟩
    by_cases habove : step = ".."
    · rw [if_neg hhere, if_pos habove] at h
      exact ⟨.inl (by simp [isDots, habove]), by rwa [enter, if_neg hhere, if_pos habove]⟩
    by_cases hlong : maxNameBytes < step.utf8ByteSize
    · rw [if_neg hhere, if_neg habove, if_pos hlong] at h
      cases h
    · rw [if_neg hhere, if_neg habove, if_neg hlong] at h
      exact ⟨.inr (Nat.le_of_not_lt hlong), by rwa [enter, if_neg hhere, if_neg habove]⟩
  · rintro ⟨hplace, hname, h⟩
    refine ⟨(), requireDirectory_eq_ok_iff.mpr hplace, ?_⟩
    rw [enter] at h
    split
    · rwa [if_pos ‹_›] at h
    · rw [if_neg ‹_›] at h
      split
      · rwa [if_pos ‹_›] at h
      · rw [if_neg ‹_›] at h
        rw [if_neg (Nat.not_lt_of_le (hname.resolve_left (by simp [isDots, *])))]
        exact h

theorem walk_append_eq_ok_iff :
    t.walk place (front ++ rest) = .ok last ↔
      ∃ middle, t.walk place front = .ok middle ∧ t.walk middle rest = .ok last := by
  induction front generalizing place with
  | nil => simp [walk]
  | cons step front ih => simp only [List.cons_append, walk_cons_eq_ok_iff, ih, and_assoc,
      exists_and_left]

/-- A walk in some tree ends where its steps lead in any. -/
theorem eq_follow_of_walk (h : t.walk place steps = .ok last) : last = follow place steps := by
  induction steps generalizing place with
  | nil => exact (Except.ok.inj h).symm
  | cons step rest ih => exact ih (walk_cons_eq_ok_iff.mp h).2.2

/-- A walk is not stopped by more directories. -/
theorem walk_mono
    (hkept : ∀ place, t.entry? place = some .directory → wider.entry? place = some .directory)
    (h : t.walk place steps = .ok last) : wider.walk place steps = .ok last := by
  induction steps generalizing place with
  | nil => exact h
  | cons step rest ih =>
    obtain ⟨hplace, hname, h⟩ := walk_cons_eq_ok_iff.mp h
    exact walk_cons_eq_ok_iff.mpr ⟨hkept place hplace, hname, ih h⟩

end FileTree

/-! ### Paths -/

namespace Path

variable {p q : Path} {cwd there names : List String}

/-- Where the path leads. -/
def place (p : Path) (cwd : List String) : List String := FileTree.follow (p.start cwd) p.steps

/-- The path comes through the place before its last step. -/
def Crosses (p : Path) (cwd place : List String) : Prop :=
  ∃ front, front <+: p.steps ∧ front ≠ p.steps ∧ place = FileTree.follow (p.start cwd) front

/-- The path comes through the place or ends there. -/
def Reaches (p : Path) (cwd place : List String) : Prop :=
  p.Crosses cwd place ∨ place = p.place cwd

/-- What stands between the slashes besides names leads nowhere. -/
theorem exists_prefix_steps {front : List String} (h : front <+: p.components)
    (origin : List String) :
    ∃ front', front' <+: p.steps ∧ (front ≠ p.components → front' ≠ p.steps) ∧
      FileTree.follow origin front = FileTree.follow origin front' := by
  cases hsteps : p.steps with
  | nil =>
    have hcomponents : p.components = [] := by simp [components, hsteps]
    rw [hcomponents, List.prefix_nil] at h
    exact ⟨[], List.prefix_rfl, by simp [h, hcomponents], by rw [h]⟩
  | cons first rest =>
    by_cases hfirst : first = "." ∧ p.absolute = true
    · have hcomponents : p.components = rest.filter (· != ".") := by
        simp [components, hsteps, hfirst]
      rw [hcomponents] at h ⊢
      obtain ⟨front', hfront', rfl⟩ := List.prefix_filter_iff.mp h
      refine ⟨first :: front', by simpa using hfront', ?_, ?_⟩
      · intro hne heq
        exact hne (by rw [(List.cons_inj_right first).mp heq])
      · rw [FileTree.follow_filter, hfirst.1]
        rfl
    · have hcomponents : p.components = first :: rest.filter (· != ".") := by
        simp [components, hsteps, hfirst]
      rw [hcomponents] at h ⊢
      rcases List.prefix_cons_iff.mp h with rfl | ⟨front, rfl, hfront⟩
      · exact ⟨[], List.nil_prefix, by simp, rfl⟩
      · obtain ⟨front', hfront', rfl⟩ := List.prefix_filter_iff.mp hfront
        refine ⟨first :: front', by simpa using hfront', ?_, ?_⟩
        · intro hne heq
          exact hne (by rw [(List.cons_inj_right first).mp heq])
        · exact FileTree.follow_filter _ _

/-- Where the parent leads, and what it comes through, is on the way of the path. -/
theorem Crosses.of_parent? (h : p.parent? = some q) (hq : q.Reaches cwd there) :
    p.Crosses cwd there := by
  obtain ⟨hne, hsteps, hstart⟩ : p.components ≠ [] ∧ q.steps = p.components.dropLast ∧
      q.start cwd = p.start cwd := by
    unfold parent? at h
    split at h
    · cases h
    · next hcomponents =>
      cases h
      simp [hcomponents, start]
  obtain ⟨front, hfront, hplace⟩ :
      ∃ front, front <+: q.steps ∧ there = FileTree.follow (p.start cwd) front := by
    rw [← hstart]
    rcases hq with ⟨front, hfront, _, hplace⟩ | hplace
    · exact ⟨front, hfront, hplace⟩
    · exact ⟨q.steps, List.prefix_rfl, hplace⟩
  rw [hsteps] at hfront
  obtain ⟨front', hfront', hproper, hfollow⟩ :=
    p.exists_prefix_steps (hfront.trans (List.dropLast_prefix _)) (p.start cwd)
  refine ⟨front', hfront', hproper ?_, hplace.trans hfollow⟩
  rintro rfl
  have hlength := hfront.length_le
  have hpositive := List.length_pos_iff.mpr hne
  rw [List.length_dropLast] at hlength
  omega

theorem place_join_through (h : ∀ name ∈ names, FileTree.isDots name = false) (p : Path)
    (cwd : List String) : (p.join (.through names)).place cwd = p.place cwd ++ names := by
  have hsteps : (p.join (.through names)).steps = p.steps ++ names := rfl
  rw [place, hsteps, FileTree.follow_append, FileTree.follow_names h]
  rfl

end Path

/-! ### Changes -/

namespace FileTree

variable {t wider changed : FileTree} {cwd place : List String} {last contents : String} {p : Path}

theorem entry_eq_getElem? (h : place ≠ []) : t.entry? place = t[place]? := by
  simp [h, entry?]

theorem locate_eq_ok_iff :
    t.locate cwd p = .ok place ↔
      (p.steps ≠ [] ∨ p.absolute = true) ∧ t.walk (p.start cwd) p.steps = .ok place := by
  rw [locate]
  by_cases h : (p.steps.isEmpty && !p.absolute) = true
  · rw [if_pos h]
    simp only [Bool.and_eq_true, List.isEmpty_iff, Bool.not_eq_true'] at h
    simp [h]
  · rw [if_neg h]
    simp only [Bool.and_eq_true, List.isEmpty_iff, Bool.not_eq_true', not_and_or,
      Bool.not_eq_false] at h
    simp [h]

/-- A path that leads somewhere leads to its place. -/
theorem eq_place_of_locate (h : t.locate cwd p = .ok place) : place = p.place cwd :=
  eq_follow_of_walk (locate_eq_ok_iff.mp h).2

theorem locate_mono
    (hkept : ∀ place, t.entry? place = some .directory → wider.entry? place = some .directory)
    (h : t.locate cwd p = .ok place) : wider.locate cwd p = .ok place := by
  obtain ⟨hsomewhere, h⟩ := locate_eq_ok_iff.mp h
  exact locate_eq_ok_iff.mpr ⟨hsomewhere, walk_mono hkept h⟩

/-- A last step that does not stay is one of the path. -/
theorem locateParent_ok (h : t.locateParent cwd p = .ok (place, last))
    (hlast : isDots last = false) :
    ∃ front, p.steps = front ++ [last] ∧ t.walk (p.start cwd) front = .ok place ∧
      t.entry? place = some .directory := by
  unfold locateParent at h
  split at h
  · next last' hlast' =>
    obtain ⟨place', hwalk, h⟩ := bind_eq_ok_iff.mp h
    obtain ⟨_, hrequire, h⟩ := bind_eq_ok_iff.mp h
    cases h
    obtain ⟨front, hsteps⟩ := List.getLast?_eq_some_iff.mp hlast'
    rw [hsteps, List.dropLast_concat] at hwalk
    exact ⟨front, hsteps, hwalk, requireDirectory_eq_ok_iff.mp hrequire⟩
  · split at h
    · cases h
      cases hlast
    · cases h

/-- An entry that the last step names is where the path leads. -/
theorem place_of_locateParent (h : t.locateParent cwd p = .ok (place, last))
    (hlast : isDots last = false) : p.place cwd = place ++ [last] := by
  obtain ⟨front, hsteps, hwalk, _⟩ := locateParent_ok h hlast
  rw [Path.place, hsteps, follow_append, ← eq_follow_of_walk hwalk]
  exact enter_of_isDots_eq_false hlast place

theorem locate_of_locateParent (h : t.locateParent cwd p = .ok (place, last))
    (hlast : isDots last = false) (hshort : last.utf8ByteSize ≤ maxNameBytes) :
    t.locate cwd p = .ok (p.place cwd) := by
  obtain ⟨front, hsteps, hwalk, hplace⟩ := locateParent_ok h hlast
  have hstep : t.walk place [last] = .ok (place ++ [last]) := by
    rw [walk_cons_eq_ok_iff, enter_of_isDots_eq_false hlast]
    exact ⟨hplace, .inr hshort, rfl⟩
  rw [place_of_locateParent h hlast, locate_eq_ok_iff, hsteps, walk_append_eq_ok_iff]
  exact ⟨.inl (by simp), place, hwalk, hstep⟩

/-- A file is written where its path leads, unless a directory stands there. -/
theorem write_ok (h : t.write cwd p contents = .ok changed) :
    t.locate cwd p = .ok (p.place cwd) ∧ p.trailingSlash = false ∧ p.place cwd ≠ [] ∧
      t.entry? (p.place cwd) ≠ some .directory ∧
      changed = t.insert (p.place cwd) (.file contents) := by
  obtain ⟨⟨place, last⟩, hparent, h⟩ := bind_eq_ok_iff.mp h
  dsimp only at h
  split at h
  · cases h
  · next hentry =>
    obtain ⟨hdots, hslash⟩ : isDots last = false ∧ p.trailingSlash = false := by
      simpa using hentry
    split at h
    · cases h
    · next hshort =>
      split at h
      · cases h
      · next hfree =>
        cases h
        have hplace := place_of_locateParent hparent hdots
        rw [← hplace] at hfree ⊢
        exact ⟨locate_of_locateParent hparent hdots (Nat.le_of_not_lt hshort), hslash,
          by simp [hplace], hfree, rfl⟩

/-- A directory is made where its path leads, if nothing stands there. -/
theorem makeDirectory_ok (h : t.makeDirectory cwd p = .ok changed) :
    p.place cwd ≠ [] ∧ t[p.place cwd]? = none ∧
      changed = t.insert (p.place cwd) .directory := by
  obtain ⟨⟨place, last⟩, hparent, h⟩ := bind_eq_ok_iff.mp h
  dsimp only at h
  split at h
  · cases h
  · next hdots =>
    split at h
    · cases h
    · split at h
      · cases h
      · next hfree =>
        cases h
        have hplace := place_of_locateParent hparent (by simpa using hdots)
        rw [← hplace] at hfree ⊢
        have hne : p.place cwd ≠ [] := by simp [hplace]
        rw [entry_eq_getElem? hne, Bool.not_eq_true, Option.isSome_eq_false_iff,
          Option.isNone_iff_eq_none] at hfree
        exact ⟨hne, hfree, rfl⟩

end FileTree

end CapFixture
