import SchemaForge.Proofs.Files.Reading

/-! Edits of files that are on a disk: each may be replaced by other texts and removed, in any order. Edits take no
    directory away and make none, so every path leads where it led before, and a path that leads to none of the
    edited files reads what it read. -/

namespace SchemaForge

namespace Disk
variable {d d' : Disk} {l : Location} {path : String} {paths : List String}

/-! ### Removing a file -/

/-- Takes away what a location holds. -/
def erase (d : Disk) (l : Location) : Disk := { d with entries := d.entries.filter (·.1 ≠ l) }

theorem node?_erase_self (hl : l ≠ []) : (d.erase l).node? l = none := by
  rw [node?, if_neg hl, erase]
  exact List.lookup_eq_none_iff.mpr fun e he => by
    have hne := of_decide_eq_true (List.mem_filter.mp he).2
    exact bne_iff_ne.mpr (Ne.symm hne)

theorem node?_erase_of_ne {l' : Location} (h : l' ≠ l) : (d.erase l).node? l' = d.node? l' := by
  rw [node?, node?, erase, lookup_filter_of_ne h]

/-! ### Edits -/

/-- The disks that come from one by edits of the files at some paths. -/
inductive Edited (paths : List String) (d : Disk) : Disk → Prop
  | refl : Edited paths d d
  | replace {d' : Disk} {path : String} {l : Location} (text : String) : Edited paths d d' → path ∈ paths →
    d'.locate path = .ok l → Edited paths d (d'.put l (.file (.text text)))
  | remove {d' : Disk} {path : String} {l : Location} : Edited paths d d' → path ∈ paths → d'.locate path = .ok l →
    Edited paths d (d'.erase l)

/-- A location holds a text or nothing. -/
def HoldsText (d : Disk) (l : Location) : Prop := d.node? l = none ∨ ∃ text, d.node? l = some (.file (.text text))

theorem HoldsText.not_directory (h : d.HoldsText l) : d.node? l ≠ some .directory := by
  rintro hdir
  rcases h with h | ⟨_, h⟩ <;> · rw [hdir] at h; cases h

/-- What edits keep: the directories are the same, the files at the paths hold texts if anything, and every other
    location holds what it held. -/
structure EditInvariant (paths : List String) (d d' : Disk) : Prop where
  keeps : d.Keeps d'
  keepsBack : d'.Keeps d
  texts : ∀ path ∈ paths, ∀ l, d'.locate path = .ok l → d'.HoldsText l
  frame : ∀ l, (∀ path ∈ paths, d.locate path ≠ .ok l) → d'.node? l = d.node? l

namespace EditInvariant

theorem refl (h : ∀ path ∈ paths, ∀ l, d.locate path = .ok l → d.HoldsText l) : EditInvariant paths d d :=
  ⟨.refl d, .refl d, h, fun _ _ => rfl⟩

theorem locate_eq_ok_iff (h : EditInvariant paths d d') {path : String} :
    d'.locate path = .ok l ↔ d.locate path = .ok l := ⟨h.keepsBack.locate, h.keeps.locate⟩

/-- One more edit: the location of one path takes a text or nothing, and no other location changes. -/
theorem step {d'' : Disk} (h : EditInvariant paths d d') (hpath : path ∈ paths) (hl : d'.locate path = .ok l)
    (hhere : d''.here = d'.here) (hother : ∀ l', l' ≠ l → d''.node? l' = d'.node? l') (htext : d''.HoldsText l) :
    EditInvariant paths d d'' := by
  have hbefore := h.texts path hpath l hl
  -- The location was no directory and is none, so the directories of the two disks are the same.
  have hkeeps : d'.Keeps d'' := by
    refine ⟨hhere, fun l' hdir => ?_⟩
    rw [hother l' fun he => hbefore.not_directory (he ▸ hdir), hdir]
  have hkeepsBack : d''.Keeps d' := by
    refine ⟨hhere.symm, fun l' hdir => ?_⟩
    rw [← hother l' fun he => htext.not_directory (he ▸ hdir), hdir]
  refine ⟨h.keeps.trans hkeeps, hkeepsBack.trans h.keepsBack, fun path' hpath' l' hl' => ?_, fun l' hfree => ?_⟩
  · by_cases hsame : l' = l
    · exact hsame ▸ htext
    · unfold HoldsText
      rw [hother l' hsame]
      exact h.texts path' hpath' l' (hkeepsBack.locate hl')
  · have hne : l' ≠ l := by
      rintro rfl
      exact hfree path hpath (h.locate_eq_ok_iff.mp hl)
    rw [hother l' hne, h.frame l' hfree]

end EditInvariant

theorem Edited.invariant (h : Edited paths d d')
    (hd : ∀ path ∈ paths, ∀ l, d.locate path = .ok l → d.HoldsText l) : EditInvariant paths d d' := by
  induction h with
  | refl => exact .refl hd
  | replace text _ hpath hl ih =>
    have hroot := ne_nil_of_not_directory (ih.texts _ hpath _ hl).not_directory
    exact ih.step hpath hl rfl (fun _ hne => node?_put_of_ne hne _) (Or.inr ⟨text, node?_put_self hroot _⟩)
  | remove _ hpath hl ih =>
    have hroot := ne_nil_of_not_directory (ih.texts _ hpath _ hl).not_directory
    exact ih.step hpath hl rfl (fun _ hne => node?_erase_of_ne hne) (Or.inl (node?_erase_self hroot))

namespace EditInvariant

/-- A path that leads to no edited file reads what it read. -/
theorem reading_eq (h : EditInvariant paths d d') {path : String}
    (hapart : ∀ l, d.locate path = .ok l → ∀ p ∈ paths, d.locate p ≠ .ok l) : d'.reading path = d.reading path := by
  cases hl : d.locate path with
  | ok l => rw [reading_of_locate hl, reading_of_locate (h.locate_eq_ok_iff.mpr hl), h.frame l (hapart l hl)]
  | error e =>
    rw [reading_of_error hl]
    cases hl' : d'.locate path with
    | ok l =>
      rw [h.locate_eq_ok_iff.mp hl'] at hl
      cases hl
    | error e' => exact reading_of_error hl'

/-- The path of an edited file reads a text or nothing. -/
theorem reading_ne_error (h : EditInvariant paths d d') {path : String} (hpath : path ∈ paths) (e : FileError) :
    d'.reading path ≠ some (.error e) := by
  intro he
  cases hl : d'.locate path with
  | error e' =>
    rw [reading_of_error hl] at he
    cases he
  | ok l =>
    rw [reading_of_locate hl] at he
    rcases h.texts path hpath l hl with hn | ⟨text, hn⟩ <;> · rw [hn] at he; cases he

end EditInvariant

end Disk

end SchemaForge
