import BranchingStory.Console.Slot
import Mathlib.Tactic.Common

/-!
# What disk operations change

Making directories, writing a file and removing one each change little. Directories are only added, and where a
file is written or removed there is no directory. So a path that leads somewhere goes on leading there, and only
what stands at the end of it may become another. A directory that was made is there, and making it again changes
nothing. None of them complains of a null character unless the path holds one.
-/

namespace BranchingStory
namespace Disk

variable {d d' d'' : Disk} {p : Path} {l other : Location} {bytes : List UInt8}

/-! ## Single entries -/

theorem find?_filter_ne (entries : List (Location × Entry)) (h : other ≠ l) :
    (entries.filter fun e => e.1 ≠ l).find? (fun e => e.1 = other) = entries.find? fun e => e.1 = other := by
  rw [List.find?_filter]
  congr 1
  funext e
  by_cases he : e.1 = other
  · simp [he, h]
  · simp [he]

theorem entry?_put (h : d.entry? l ≠ some .directory) (entry : Entry) (other : Location) :
    Disk.entry? (d.put l entry) other = if other = l then some entry else d.entry? other := by
  by_cases htop : other = #[] ∨ other = #["/"]
  · have hother : other ≠ l := by
      rintro rfl
      exact h (if_pos htop)
    rw [if_neg hother, entry?, entry?, if_pos htop, if_pos htop]
  · rw [Disk.entry?, if_neg htop, put, List.find?_append]
    by_cases hother : other = l
    · have hnone : (d.entries.filter fun e => e.1 ≠ l).find? (fun e => e.1 = l) = none := by
        simp
      rw [if_pos hother, hother, hnone]
      simp
    · rw [if_neg hother, find?_filter_ne d.entries hother, entry?, if_neg htop]
      simp [Ne.symm hother]

theorem entry?_erase (h : d.entry? l ≠ some .directory) (other : Location) :
    Disk.entry? (d.erase l) other = if other = l then none else d.entry? other := by
  by_cases htop : other = #[] ∨ other = #["/"]
  · have hother : other ≠ l := by
      rintro rfl
      exact h (if_pos htop)
    rw [if_neg hother, entry?, entry?, if_pos htop, if_pos htop]
  · rw [Disk.entry?, if_neg htop, erase]
    by_cases hother : other = l
    · rw [if_pos hother, hother]
      simp
    · rw [if_neg hother, find?_filter_ne d.entries hother, entry?, if_neg htop]

/-! ## Paths that go on leading where they led -/

/-- Every directory of the first disk is one of the second. -/
def KeepsDirectories (d d' : Disk) : Prop :=
  ∀ l, d.entry? l = some .directory → d'.entry? l = some .directory

theorem KeepsDirectories.walk (h : d.KeepsDirectories d') {here : Location} {parts : List String}
    (hwalk : d.walk here parts = .ok l) : d'.walk here parts = .ok l := by
  induction parts generalizing here with
  | nil => exact hwalk
  | cons part parts ih =>
    rw [Disk.walk] at hwalk ⊢
    split at hwalk
    · cases hwalk
    · cases hwalk
    · rename_i hhere
      rw [h here hhere]
      dsimp only
      split at hwalk
      · cases hwalk
      · rename_i hshort
        rw [if_neg hshort]
        exact ih hwalk

theorem resolve_eq_ok : d.resolve p = .ok l ↔ p.text.contains '\x00' = false ∧
    ¬ maxPathBytes < p.text.utf8ByteSize ∧ d.walk (.ofAnchor p.anchor) p.parts = .ok l := by
  unfold resolve
  split
  · simp_all
  · split
    · simp_all
    · cases d.walk (.ofAnchor p.anchor) p.parts <;> simp_all [Except.mapError]

theorem KeepsDirectories.resolve (h : d.KeepsDirectories d') (hresolve : d.resolve p = .ok l) :
    d'.resolve p = .ok l := by
  obtain ⟨hnull, hshort, hwalk⟩ := resolve_eq_ok.mp hresolve
  exact resolve_eq_ok.mpr ⟨hnull, hshort, h.walk hwalk⟩

theorem keepsDirectories_put (h : d.entry? l ≠ some .directory) (entry : Entry) :
    d.KeepsDirectories (d.put l entry) := by
  intro other hother
  have hne : other ≠ l := by
    rintro rfl
    exact h hother
  rw [Disk.entry?_put h, if_neg hne, hother]

theorem keepsDirectories_erase (h : d.entry? l ≠ some .directory) : d.KeepsDirectories (d.erase l) := by
  intro other hother
  have hne : other ≠ l := by
    rintro rfl
    exact h hother
  rw [Disk.entry?_erase h, if_neg hne, hother]

/-! ## Directories that are added -/

/-- The second disk has what the first one has, and perhaps more directories. -/
def Grows (d d' : Disk) : Prop :=
  ∀ l, d'.entry? l = d.entry? l ∨ d.entry? l = none ∧ d'.entry? l = some .directory

theorem Grows.refl (d : Disk) : d.Grows d := fun _ => .inl rfl

theorem Grows.trans (h : d.Grows d') (h' : d'.Grows d'') : d.Grows d'' := by
  intro l
  rcases h l with heq | ⟨hnone, hdirectory⟩
  · rw [← heq]
    exact h' l
  · rcases h' l with heq' | ⟨hnone', _⟩
    · exact .inr ⟨hnone, heq'.trans hdirectory⟩
    · rw [hdirectory] at hnone'
      cases hnone'

theorem Grows.keepsDirectories (h : d.Grows d') : d.KeepsDirectories d' := by
  intro l hl
  rcases h l with heq | ⟨hnone, _⟩
  · rw [heq, hl]
  · rw [hl] at hnone
    cases hnone

theorem Grows.file_iff (h : d.Grows d') : d'.entry? l = some (.file bytes) ↔ d.entry? l = some (.file bytes) := by
  rcases h l with heq | ⟨hnone, hdirectory⟩
  · rw [heq]
  · simp [hnone, hdirectory]

theorem grows_put_directory (h : d.entry? l = none) : d.Grows (d.put l .directory) := by
  intro other
  rw [Disk.entry?_put (by simp [h])]
  by_cases hother : other = l
  · simp [hother, h]
  · exact .inl (if_neg hother)

theorem makeDir_eq_ok : d.makeDir p = .ok d' ↔
    ∃ l, d.resolve p = .ok l ∧ d.entry? l = none ∧ d.put l .directory = d' := by
  unfold makeDir
  cases d.resolve p with
  | error fault => simp [bind, Except.bind]
  | ok l =>
    simp only [bind, Except.bind, Except.ok.injEq, exists_eq_left']
    cases d.entry? l <;> simp [pure, Except.pure]

theorem grows_makeDir (h : d.makeDir p = .ok d') : d.Grows d' := by
  obtain ⟨l, _, hnone, rfl⟩ := makeDir_eq_ok.mp h
  exact grows_put_directory hnone

theorem grows_makeDirsFrom (d : Disk) (walked : Path) (here : Location) (parts : List String) :
    d.Grows (d.makeDirsFrom walked here parts).disk := by
  induction parts generalizing d walked here with
  | nil => exact Grows.refl d
  | cons part parts ih =>
    rw [makeDirsFrom]
    split
    · exact Grows.refl d
    · split
      · exact ih d _ _
      · exact Grows.refl d
      · rename_i hnone
        exact (grows_put_directory hnone).trans (ih _ _ _)

/-- Making directories adds directories, also when it fails on the way. -/
theorem grows_makeDirs (d : Disk) (p : Path) : d.Grows (d.makeDirs p).disk := by
  unfold makeDirs
  split
  · rename_i hmade
    exact grows_makeDir hmade
  · split
    · exact grows_makeDirsFrom _ _ _ _
    · exact Grows.refl d

theorem makeDirsFrom_nesting (d : Disk) (walked : Path) (here : Location) (parts : List String) :
    (d.makeDirsFrom walked here parts).disk.nesting = d.nesting := by
  induction parts generalizing d walked here with
  | nil => rfl
  | cons part parts ih =>
    rw [makeDirsFrom]
    split
    · rfl
    · split
      · exact ih d _ _
      · rfl
      · exact ih _ _ _

@[simp] theorem makeDirs_nesting (d : Disk) (p : Path) : (d.makeDirs p).disk.nesting = d.nesting := by
  unfold makeDirs
  split
  · rename_i hmade
    obtain ⟨l, _, _, rfl⟩ := makeDir_eq_ok.mp hmade
    rfl
  · split
    · exact makeDirsFrom_nesting _ _ _ _
    · rfl

/-! ## Directories that are there -/

theorem isDirectory_iff : d.isDirectory p = true ↔ ∃ l, d.resolve p = .ok l ∧ d.entry? l = some .directory := by
  unfold isDirectory find?
  cases d.resolve p <;> simp

theorem KeepsDirectories.isDirectory (h : d.KeepsDirectories d') (hp : d.isDirectory p = true) :
    d'.isDirectory p = true := by
  obtain ⟨l, hresolve, hl⟩ := isDirectory_iff.mp hp
  exact isDirectory_iff.mpr ⟨l, h.resolve hresolve, h l hl⟩

theorem makeDirs_of_isDirectory (h : d.isDirectory p = true) : d.makeDirs p = { disk := d } := by
  obtain ⟨l, hresolve, hl⟩ := isDirectory_iff.mp h
  have hmade : d.makeDir p = .error (.blocked .present p) := by
    rw [makeDir, hresolve]
    simp [bind, Except.bind, hl]
  simp [makeDirs, hmade, DiskFault.isMissing, h]

theorem entry?_ofAnchor (d : Disk) (anchor : Anchor) : d.entry? (.ofAnchor anchor) = some .directory := by
  cases anchor
  · exact if_pos (.inl rfl)
  · exact if_pos (.inr rfl)
  · exact if_pos (.inr rfl)

theorem walk_makeDirsFrom (d : Disk) (walked : Path) {here : Location} {parts : List String}
    (hhere : d.entry? here = some .directory) (h : (d.makeDirsFrom walked here parts).fault = none) :
    ∃ l, (d.makeDirsFrom walked here parts).disk.walk here parts = .ok l ∧
      (d.makeDirsFrom walked here parts).disk.entry? l = some .directory := by
  induction parts generalizing d walked here with
  | nil => exact ⟨here, rfl, hhere⟩
  | cons part parts ih =>
    have hkept := (d.grows_makeDirsFrom walked here (part :: parts)).keepsDirectories here hhere
    rw [walk, hkept]
    rw [makeDirsFrom] at h ⊢
    dsimp only at h ⊢
    split at h
    · cases h
    · rename_i hshort
      simp only [if_neg hshort]
      split at h
      · rename_i hentry
        exact ih d _ hentry h
      · cases h
      · rename_i hentry
        have hnew : Disk.entry? (d.put (here.go part) .directory) (here.go part) = some .directory := by
          rw [Disk.entry?_put (by simp [hentry]), if_pos rfl]
        exact ih _ _ hnew h

/-- If something is missing where a directory should be made, it is missing on the way, and the text of the path is
none to complain of. -/
theorem text_of_makeDir_missing {fault : DiskFault} (h : d.makeDir p = .error fault)
    (hmissing : fault.isMissing = true) :
    p.text.contains '\x00' = false ∧ ¬ maxPathBytes < p.text.utf8ByteSize := by
  have hresolve : d.resolve p = .error fault := by
    unfold makeDir at h
    cases hresolve : d.resolve p with
    | error other =>
      rw [hresolve] at h
      exact congrArg Except.error (Except.error.inj h)
    | ok l =>
      rw [hresolve] at h
      simp only [bind, Except.bind] at h
      split at h
      · obtain rfl := Except.error.inj h
        cases hmissing
      · cases h
  unfold resolve at hresolve
  split at hresolve
  · obtain rfl := Except.error.inj hresolve
    cases hmissing
  · rename_i hplain
    split at hresolve
    · obtain rfl := Except.error.inj hresolve
      cases hmissing
    · rename_i hshort
      exact ⟨by simpa using hplain, hshort⟩

theorem isDirectory_makeDirs (h : (d.makeDirs p).fault = none) : (d.makeDirs p).disk.isDirectory p = true := by
  cases hmade : d.makeDir p with
  | ok made =>
    obtain ⟨l, hresolve, hnone, rfl⟩ := makeDir_eq_ok.mp hmade
    have hresolve := (grows_put_directory hnone).keepsDirectories.resolve hresolve
    simp only [makeDirs, hmade]
    refine isDirectory_iff.mpr ⟨l, hresolve, ?_⟩
    rw [Disk.entry?_put (by simp [hnone]), if_pos rfl]
  | error fault =>
    simp only [makeDirs, hmade] at h ⊢
    split at h
    · rename_i hmissing
      obtain ⟨hplain, hshort⟩ := text_of_makeDir_missing hmade hmissing
      obtain ⟨l, hwalk, hl⟩ := walk_makeDirsFrom d _ (entry?_ofAnchor d p.anchor) h
      rw [if_pos hmissing]
      exact isDirectory_iff.mpr ⟨l, resolve_eq_ok.mpr ⟨hplain, hshort, hwalk⟩, hl⟩
    · rename_i hfault
      rw [if_neg hfault]
      simpa using h

/-! ## Files -/

theorem read_eq_ok : d.read p = .ok bytes ↔ ∃ l, d.resolve p = .ok l ∧ d.entry? l = some (.file bytes) := by
  unfold read
  cases d.resolve p with
  | error fault => simp [bind, Except.bind]
  | ok l =>
    simp only [bind, Except.bind, Except.ok.injEq, exists_eq_left']
    split <;> simp_all [pure, Except.pure]

theorem write_eq_ok : d.write p bytes = .ok d' ↔
    ∃ l, d.resolve p = .ok l ∧ d.entry? l ≠ some .directory ∧ d.put l (.file bytes) = d' := by
  unfold write
  cases d.resolve p with
  | error fault => simp [bind, Except.bind]
  | ok l =>
    simp only [bind, Except.bind, Except.ok.injEq, exists_eq_left']
    split <;> simp_all [pure, Except.pure]

theorem remove_eq_ok : d.remove p = .ok d' ↔
    ∃ l, d.resolve p = .ok l ∧ (∃ bytes, d.entry? l = some (.file bytes)) ∧ d.erase l = d' := by
  unfold remove
  cases d.resolve p with
  | error fault => simp [bind, Except.bind]
  | ok l =>
    simp only [bind, Except.bind, Except.ok.injEq, exists_eq_left']
    split <;> simp_all [pure, Except.pure]

theorem readDocument_of_error {fault : DiskFault} (h : d.read p = .error fault) :
    d.readDocument p = .error (.disk fault) := by
  rw [readDocument, h]
  rfl

theorem readDocument_of_ok (h : d.read p = .ok bytes) : d.readDocument p = Json.ofBytes d.nesting bytes := by
  rw [readDocument, h]
  rfl

/-! ## Null characters -/

theorem resolve_eq_nullCharacter : d.resolve p = .error .nullCharacter ↔ p.text.contains '\x00' = true := by
  constructor
  · intro h
    unfold resolve at h
    split at h
    · assumption
    · split at h
      · cases h
      · cases hwalk : d.walk (.ofAnchor p.anchor) p.parts with
        | ok l =>
          rw [hwalk] at h
          cases h
        | error trouble =>
          rw [hwalk] at h
          cases h
  · intro h
    exact if_pos h

/-- What is done at a location finds no null character; looking the location up does. -/
theorem bind_eq_nullCharacter {α : Type} {f : Location → Except DiskFault α}
    (hf : ∀ l, f l ≠ .error .nullCharacter) :
    (d.resolve p >>= f) = .error .nullCharacter ↔ p.text.contains '\x00' = true := by
  rw [← resolve_eq_nullCharacter (d := d)]
  cases d.resolve p with
  | ok l => simpa [bind, Except.bind] using hf l
  | error fault => simp [bind, Except.bind]

theorem read_eq_nullCharacter : d.read p = .error .nullCharacter ↔ p.text.contains '\x00' = true := by
  apply bind_eq_nullCharacter
  intro l
  split <;> simp [pure, Except.pure]

theorem write_eq_nullCharacter : d.write p bytes = .error .nullCharacter ↔ p.text.contains '\x00' = true := by
  apply bind_eq_nullCharacter
  intro l
  split <;> simp [pure, Except.pure]

theorem makeDir_eq_nullCharacter : d.makeDir p = .error .nullCharacter ↔ p.text.contains '\x00' = true := by
  apply bind_eq_nullCharacter
  intro l
  split <;> simp [pure, Except.pure]

theorem makeDirsFrom_fault_ne (d : Disk) (walked : Path) (here : Location) (parts : List String) :
    (d.makeDirsFrom walked here parts).fault ≠ some .nullCharacter := by
  induction parts generalizing d walked here with
  | nil => simp [makeDirsFrom]
  | cons part parts ih =>
    rw [makeDirsFrom]
    split
    · simp
    · split
      · exact ih _ _ _
      · simp
      · exact ih _ _ _

theorem makeDirs_fault_eq_nullCharacter :
    (d.makeDirs p).fault = some .nullCharacter ↔ p.text.contains '\x00' = true := by
  constructor
  · intro h
    unfold makeDirs at h
    split at h
    · cases h
    · rename_i fault hmade
      split at h
      · exact absurd h (makeDirsFrom_fault_ne _ _ _ _)
      · dsimp only at h
        split at h
        · cases h
        · obtain rfl := Option.some.inj h
          exact makeDir_eq_nullCharacter.mp hmade
  · intro h
    have hplace : d.isDirectory p = false := by
      rw [isDirectory, find?, resolve_eq_nullCharacter.mpr h]
      rfl
    simp [makeDirs, makeDir_eq_nullCharacter.mpr h, DiskFault.isMissing, hplace]

/-! ## The working directory -/

/-- The name of something in the working directory, as a path of its own. -/
structure IsPlain (name : String) : Prop where
  text : ({ parts := [name] } : Path).text = name
  plain : name.contains '\x00' = false
  short : ¬ maxPathBytes < name.utf8ByteSize
  part : ¬ maxPartBytes < name.utf8ByteSize
  go : Location.go #[] name = #[name]

theorem IsPlain.resolve {name : String} (h : IsPlain name) (d : Disk) :
    d.resolve { parts := [name] } = .ok #[name] := by
  rw [resolve_eq_ok, h.text]
  refine ⟨h.plain, h.short, ?_⟩
  simp [Disk.walk, Disk.entry?, Location.ofAnchor, h.part, h.go]

theorem makeDirs_here (d : Disk) : d.makeDirs {} = { disk := d } := by
  have htext : ({} : Path).text = "." := by decide +kernel
  have hresolve : d.resolve {} = .ok #[] := by
    rw [resolve_eq_ok, htext]
    exact ⟨by simp, by decide +kernel, rfl⟩
  exact makeDirs_of_isDirectory (isDirectory_iff.mpr ⟨#[], hresolve, rfl⟩)

end Disk

namespace Slot

theorem path_here : Slot.path { directory := {} } = { parts := ["quick_save.json"] } := by
  decide +kernel

theorem resolve_here (d : Disk) : d.resolve { parts := ["quick_save.json"] } = .ok #["quick_save.json"] := by
  refine Disk.IsPlain.resolve ⟨?text, ?plain, ?short, ?part, ?go⟩ d
  case plain => simp
  all_goals decide +kernel

end Slot
end BranchingStory
