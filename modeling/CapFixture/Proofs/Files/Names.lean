import Mathlib.Data.List.Induction
import CapFixture.Proofs.Files.Directories

/-!
# Directories along names

The directories along some names can all be made if no file stands on the way, and then a file can
be written in the last of them.

## Main definitions

- `FileTree.Clear` — no file stands on the way
- `FileTree.Open` — directories stand all the way
-/

namespace CapFixture

open FileTree

/-! ### Names for paths -/

namespace Path

variable {names front there : List String} {last : String}

theorem place_through (h : ∀ name ∈ names, IsName name) : (through names).place [] = names :=
  follow_names (fun name hname => (h name hname).isDots_eq_false) []

theorem crosses_through_iff (h : ∀ name ∈ names, IsName name) :
    (through names).Crosses [] there ↔ there <+: names ∧ there ≠ names := by
  have hfollow : ∀ front, front <+: names → follow [] front = front := fun front hfront =>
    follow_names (fun name hname => (h name (hfront.subset hname)).isDots_eq_false) []
  constructor
  · rintro ⟨front, hfront, hne, rfl⟩
    rw [start_through, hfollow front hfront]
    exact ⟨hfront, hne⟩
  · rintro ⟨hthere, hne⟩
    exact ⟨there, hthere, hne, (hfollow there hthere).symm⟩

theorem reaches_through_iff (h : ∀ name ∈ names, IsName name) :
    (through names).Reaches [] there ↔ there <+: names := by
  rw [Reaches, crosses_through_iff h, place_through h]
  constructor
  · rintro (⟨hthere, _⟩ | rfl)
    · exact hthere
    · exact List.prefix_rfl
  · intro hthere
    by_cases heq : there = names
    · exact .inr heq
    · exact .inl ⟨hthere, heq⟩

theorem join_through (hne : names ≠ []) (front : List String) :
    (through front).join (through names) = through (front ++ names) := by
  simp [join, through, hne]

theorem components_through (h : ∀ name ∈ names, IsName name) :
    (through names).components = names := by
  cases names with
  | nil => rfl
  | cons first rest =>
    have hkept : rest.filter (· != ".") = rest := by
      refine List.filter_eq_self.mpr fun name hname => ?_
      simpa using (h name (List.mem_cons_of_mem _ hname)).ne_here
    simp [components, through, hkept]

theorem parent?_through (h : ∀ name ∈ names ++ [last], IsName name) :
    (through (names ++ [last])).parent? = some (through names) := by
  have hcomponents := components_through h
  unfold parent?
  split
  · next hnil => simp [hcomponents] at hnil
  · next hcons => rw [← hcons, hcomponents, List.dropLast_concat]; rfl

end Path

namespace FileTree

variable {t made after : FileTree} {place names front rest : List String}
  {name last contents : String} {p : Path} {error : FileError}

/-! ### Walks along names -/

/-- Names lead through directories to where they say. -/
theorem walk_names (h : ∀ name ∈ names, IsName name)
    (hopen : ∀ front, front <+: names → front ≠ names →
      t.entry? (place ++ front) = some .directory) :
    t.walk place names = .ok (place ++ names) := by
  induction names generalizing place with
  | nil => rw [List.append_nil]; rfl
  | cons name rest ih =>
    obtain ⟨hname, hrest⟩ := List.forall_mem_cons.mp h
    have hplace : t.entry? place = some .directory := by
      simpa using hopen [] List.nil_prefix (List.cons_ne_nil _ _).symm
    rw [walk_cons hplace hname, ih hrest, List.append_assoc, List.singleton_append]
    intro front hfront hne
    rw [List.append_assoc, List.singleton_append]
    exact hopen (name :: front) ((List.prefix_cons_inj name).mpr hfront)
      fun heq => hne (List.cons.inj heq).2

/-- A walk comes through directories only. -/
theorem entry_of_walk (h : ∀ name ∈ names, IsName name) (hwalk : t.walk [] names = .ok place)
    (hfront : front <+: names) (hne : front ≠ names) : t.entry? front = some .directory := by
  obtain ⟨rest, rfl⟩ := hfront
  obtain ⟨middle, hmiddle, hrest⟩ := walk_append_eq_ok_iff.mp hwalk
  obtain rfl : middle = front := by
    rw [eq_follow_of_walk hmiddle, follow_names fun name hname =>
      (h name (List.mem_append_left _ hname)).isDots_eq_false, List.nil_append]
  cases rest with
  | nil => exact absurd (List.append_nil _).symm hne
  | cons step rest => exact (walk_cons_eq_ok_iff.mp hrest).1

/-- A walk that meets no file stops only where nothing stands. -/
theorem eq_notFound_of_walk (h : ∀ name ∈ names, IsName name)
    (hclear : ∀ front, front <+: names → ∀ contents,
      t.entry? (place ++ front) ≠ some (.file contents))
    (hwalk : t.walk place names = .error error) : error = .notFound := by
  induction names generalizing place with
  | nil => cases hwalk
  | cons name rest ih =>
    obtain ⟨hname, hrest⟩ := List.forall_mem_cons.mp h
    have hhere := hclear [] List.nil_prefix
    rw [List.append_nil] at hhere
    rcases hplace : t.entry? place with _ | _ | contents
    · simp only [walk, requireDirectory, hplace, bind, Except.bind] at hwalk
      cases hwalk
      rfl
    · rw [walk_cons hplace hname] at hwalk
      refine ih hrest (fun front hfront => ?_) hwalk
      rw [List.append_assoc, List.singleton_append]
      exact hclear (name :: front) ((List.prefix_cons_inj name).mpr hfront)
    · exact absurd hplace (hhere contents)

/-! ### Directories along names -/

/-- No file stands on the way along the names, nor at their end. -/
def Clear (t : FileTree) (names : List String) : Prop :=
  ∀ front, front ≠ [] → front <+: names → t.file? front = none

/-- Directories stand all the way along the names. -/
def Open (t : FileTree) (names : List String) : Prop :=
  ∀ front, front <+: names → t.entry? front = some .directory

theorem ne_nil_of_entry?_eq (h : t.entry? place = some (.file contents)) : place ≠ [] := by
  rintro rfl
  cases h

theorem file?_eq_of_entry?_eq (h : t.entry? place = some (.file contents)) :
    t.file? place = some contents := by
  have hne := ne_nil_of_entry?_eq h
  rw [entry_eq_getElem? hne] at h
  rw [file?, h]

theorem Clear.entry?_ne_file (h : t.Clear names) (hfront : front <+: names) (contents : String) :
    t.entry? front ≠ some (.file contents) := by
  intro hfile
  cases (h front (ne_nil_of_entry?_eq hfile) hfront).symm.trans (file?_eq_of_entry?_eq hfile)

theorem Clear.mono (h : t.Clear names) (hfront : front <+: names) : t.Clear front :=
  fun place hne hplace => h place hne (hplace.trans hfront)

theorem open_nil (t : FileTree) : t.Open [] := by
  intro front hfront
  rw [List.prefix_nil.mp hfront]
  rfl

theorem Open.concat (h : t.Open names) (hlast : t.entry? (names ++ [last]) = some .directory) :
    t.Open (names ++ [last]) := by
  intro front hfront
  rcases List.prefix_concat_iff.mp hfront with rfl | hfront
  · exact hlast
  · exact h front hfront

theorem Open.walk (hopen : t.Open names) (h : ∀ name ∈ names, IsName name) :
    t.walk [] names = .ok names := by
  have hwalk : t.walk [] names = .ok ([] ++ names) :=
    walk_names h fun front hfront _ => hopen front hfront
  simpa using hwalk

theorem locateParent_through (t : FileTree) (names : List String) (last : String) :
    t.locateParent [] (.through (names ++ [last])) = (do
      let place ← t.walk [] names
      t.requireDirectory place
      return (place, last)) := by
  simp [FileTree.locateParent, Path.through, Path.start]

theorem Open.locateParent (hopen : t.Open names) (h : ∀ name ∈ names, IsName name)
    (last : String) :
    t.locateParent [] (.through (names ++ [last])) = .ok (names, last) := by
  have hrequire : t.requireDirectory names = .ok () :=
    requireDirectory_eq_ok_iff.mpr (hopen names List.prefix_rfl)
  rw [locateParent_through, hopen.walk h]
  simp only [bind, Except.bind, hrequire]
  rfl

/-- If the way is clear but not open, then nothing stands somewhere on it. -/
theorem Clear.locateParent (hclear : t.Clear names) (hclosed : ¬ t.Open names)
    (h : ∀ name ∈ names, IsName name) (last : String) :
    t.locateParent [] (.through (names ++ [last])) = .error .notFound := by
  rw [locateParent_through]
  cases hwalk : t.walk [] names with
  | error error =>
    obtain rfl := eq_notFound_of_walk h
      (fun front hfront => by simpa using hclear.entry?_ne_file hfront) hwalk
    rfl
  | ok place =>
    obtain rfl : place = names := by
      rw [eq_follow_of_walk hwalk, follow_names fun name hname => (h name hname).isDots_eq_false,
        List.nil_append]
    have hnone : t.entry? place = none := by
      rcases hplace : t.entry? place with _ | _ | contents
      · rfl
      · refine absurd (fun front hfront => ?_) hclosed
        by_cases heq : front = place
        · rw [heq, hplace]
        · exact entry_of_walk h hwalk hfront heq
      · exact absurd hplace (hclear.entry?_ne_file List.prefix_rfl contents)
    have hrequire : t.requireDirectory place = .error .notFound := by
      simp only [requireDirectory, hnone]
    simp only [bind, Except.bind, hrequire]

theorem Open.insert (hopen : t.Open names) (entry : Entry) (hplace : ¬ place <+: names) :
    Open (t.insert place entry) names := by
  intro front hfront
  by_cases hfirst : front = []
  · rw [hfirst]
    rfl
  · have hne : place ≠ front := fun heq => hplace (heq ▸ hfront)
    rw [entry_eq_getElem? hfirst, getElem?_insert_ne hne, ← entry_eq_getElem? hfirst]
    exact hopen front hfront

theorem concat_not_prefix_self (names : List String) (last : String) :
    ¬ names ++ [last] <+: names := by
  intro hprefix
  have hlength := hprefix.length_le
  rw [List.length_append, List.length_singleton] at hlength
  omega

/-- In a directory that is there another one can be made, or it is there already. -/
theorem makeDirectory_of_open (hopen : t.Open names) (h : ∀ name ∈ names ++ [last], IsName name)
    (hfree : t.file? (names ++ [last]) = none) :
    (∃ made, access.makeDirectory (.through (names ++ [last])) t = (.ok (), made) ∧
      made.Open (names ++ [last]) ∧ made[([] : List String)]? = t[([] : List String)]?) ∨
    (access.makeDirectory (.through (names ++ [last])) t = (.error .alreadyExists, t) ∧
      access.tolerate (.through (names ++ [last])) .alreadyExists t = (.ok (), t) ∧
      t.Open (names ++ [last])) := by
  obtain ⟨hnames, hlast⟩ := List.forall_mem_append.mp h
  have hlast : IsName last := hlast last (List.mem_singleton_self last)
  have hparent := hopen.locateParent hnames last
  have hne : names ++ [last] ≠ [] := List.concat_ne_nil last names
  have hmake : t.makeDirectory [] (.through (names ++ [last])) =
      if (t.entry? (names ++ [last])).isSome then .error .alreadyExists
      else .ok (t.insert (names ++ [last]) .directory) := by
    rw [FileTree.makeDirectory, hparent]
    simp [hlast.isDots_eq_false, Nat.not_lt.mpr hlast.short, bind, Except.bind]
    rfl
  rcases hplace : t.entry? (names ++ [last]) with _ | _ | contents
  · refine .inl ⟨t.insert (names ++ [last]) .directory,
      access_makeDirectory_ok (by rw [hmake, hplace]; rfl), Open.concat ?_ ?_, ?_⟩
    · exact hopen.insert .directory (concat_not_prefix_self names last)
    · rw [entry_eq_getElem? hne]
      exact Std.ExtTreeMap.getElem?_insert_self
    · exact getElem?_insert_ne hne
  · have hthere : t.isDirectory [] (.through (names ++ [last])) = true := by
      have hwalk := (hopen.concat hplace).walk h
      have hlocate : t.locate [] (.through (names ++ [last])) = .ok (names ++ [last]) :=
        locate_eq_ok_iff.mpr ⟨.inl hne, hwalk⟩
      simp [isDirectory, hlocate, hplace]
    refine .inr ⟨access_makeDirectory_error (by rw [hmake, hplace]; rfl), ?_, hopen.concat hplace⟩
    have hanswer : access.isDirectory (.through (names ++ [last])) t = (true, t) := by
      rw [← hthere]
      rfl
    simp only [FileAccess.tolerate, bind, StateT.bind, hanswer]
    rfl
  · cases hfree.symm.trans (file?_eq_of_entry?_eq hplace)

/-- All directories along the names can be made if no file stands on the way. -/
theorem exists_makeDirectories (h : ∀ name ∈ names, IsName name) (hclear : t.Clear names) :
    ∃ made, access.makeDirectories (.through names) t = (.ok (), made) ∧ made.Open names ∧
      made[([] : List String)]? = t[([] : List String)]? := by
  induction names using List.reverseRecOn with
  | nil => exact ⟨t, by rw [FileAccess.makeDirectories_eq_attempt]; rfl, open_nil t, rfl⟩
  | append_singleton names last ih =>
    have hnames : ∀ name ∈ names, IsName name := fun name hname =>
      h name (List.mem_append_left _ hname)
    have hne : Path.through (names ++ [last]) ≠ .here := by simp [Path.through, Path.here]
    rw [FileAccess.makeDirectories_eq_attempt, if_neg hne]
    by_cases hopen : t.Open names
    · rcases makeDirectory_of_open hopen h
          (hclear _ (List.concat_ne_nil last names) List.prefix_rfl) with
        ⟨made, hmake, hmade⟩ | ⟨hmake, htolerate, hthere⟩
      · exact ⟨made, by simp only [bind, StateT.bind, hmake]; rfl, hmade⟩
      · exact ⟨t, by simp only [bind, StateT.bind, hmake, htolerate], hthere, rfl⟩
    · -- the directories above are made first, and then the last one can be made
      have hmissing : t.makeDirectory [] (.through (names ++ [last])) = .error .notFound := by
        rw [FileTree.makeDirectory,
          (hclear.mono (List.prefix_append _ _)).locateParent hopen hnames]
        rfl
      obtain ⟨above, habove, hopen, hroot⟩ := ih hnames (hclear.mono (List.prefix_append _ _))
      have hwider := widens_makeDirectories [] (.through names) t
      rw [habove] at hwider
      have hfree : above.file? (names ++ [last]) = none := by
        rw [hwider.file?_eq]
        exact hclear _ (List.concat_ne_nil last names) List.prefix_rfl
      simp only [bind, StateT.bind, access_makeDirectory_error hmissing,
        FileAccess.makeAfterParent, Path.parent?_through h, habove]
      rcases makeDirectory_of_open hopen h hfree with
        ⟨made, hmake, hmade, hsame⟩ | ⟨hmake, htolerate, hthere⟩
      · exact ⟨made, by simp only [hmake]; rfl, hmade, hsame.trans hroot⟩
      · exact ⟨above, by simp only [hmake, htolerate], hthere, hroot⟩

/-- In a directory that is there a file is written where no directory stands. -/
theorem write_of_open (hopen : t.Open names) (h : ∀ name ∈ names ++ [last], IsName name)
    (hfree : t[names ++ [last]]? ≠ some Entry.directory) (contents : String) :
    t.write [] (.through (names ++ [last])) contents =
      .ok (t.insert (names ++ [last]) (.file contents)) := by
  obtain ⟨hnames, hlast⟩ := List.forall_mem_append.mp h
  have hlast : IsName last := hlast last (List.mem_singleton_self last)
  have hparent := hopen.locateParent hnames last
  rw [← entry_eq_getElem? (List.concat_ne_nil last names)] at hfree
  rw [FileTree.write, hparent]
  simp [hlast.isDots_eq_false, Nat.not_lt.mpr hlast.short, Path.through, bind, Except.bind, hfree]
  rfl

end FileTree

end CapFixture
