import SchemaForge.Output
import SchemaForge.Proofs.Files.Disk

/-! Writing a list of files to a disk. Each file makes the directories that it lacks and then takes its
    location, so after a run without a failure a path reads what the last file at its location has. A run that
    fails has written the files before the one that its error names, and made directories for that one at most. -/

namespace SchemaForge

/-! ### Programs that only make directories -/

namespace Disk
variable {d d' d'' : Disk} {l : Location} {paths : List String}

/-- The location held nothing and is now a directory, which one of the paths names. -/
def NewDirectory (paths : List String) (d d' : Disk) (l : Location) : Prop :=
  d.node? l = none ∧ d'.node? l = some .directory ∧ ∃ path ∈ paths, d'.target path = .ok l

/-- Directories were made at some of the paths, and nothing else has changed. -/
structure Made (paths : List String) (d d' : Disk) : Prop where
  here : d'.here = d.here
  node : ∀ l, d'.node? l = d.node? l ∨ NewDirectory paths d d' l

namespace Made

theorem refl (paths : List String) (d : Disk) : Made paths d d := ⟨rfl, fun _ => Or.inl rfl⟩

theorem toExtends (h : Made paths d d') : d.Extends d' := by
  refine ⟨h.here, fun l n hn => ?_⟩
  rcases h.node l with hsame | ⟨hnone, -⟩
  · rw [hsame, hn]
  · rw [hn] at hnone
    cases hnone

end Made

/-- A new directory stays one, under the same path. -/
theorem NewDirectory.of_keeps (h : NewDirectory paths d d' l) (k : d'.Keeps d'') : NewDirectory paths d d'' l := by
  obtain ⟨hnone, hdir, path, hpath, hl⟩ := h
  exact ⟨hnone, k.directory l hdir, path, hpath, k.target hl⟩

theorem NewDirectory.mono (h : NewDirectory paths d d' l) {more : List String} (hsub : ∀ path ∈ paths, path ∈ more) :
    NewDirectory more d d' l := by
  obtain ⟨hnone, hdir, path, hpath, hl⟩ := h
  exact ⟨hnone, hdir, path, hsub path hpath, hl⟩

/-- What may happen to a location twice, one time after the other. -/
theorem node_trans (k : d'.Keeps d'') (h : d'.node? l = d.node? l ∨ NewDirectory paths d d' l)
    (h' : d''.node? l = d'.node? l ∨ NewDirectory paths d' d'' l) :
    d''.node? l = d.node? l ∨ NewDirectory paths d d'' l := by
  rcases h with hsame | hnew
  · rcases h' with hsame' | ⟨hnone, hdir⟩
    · exact Or.inl (hsame'.trans hsame)
    · exact Or.inr ⟨hsame ▸ hnone, hdir⟩
  · exact Or.inr (hnew.of_keeps k)

theorem Made.trans (h : Made paths d d') (h' : Made paths d' d'') : Made paths d d'' :=
  ⟨h'.here.trans h.here, fun l => node_trans h'.toExtends.keeps (h.node l) (h'.node l)⟩

theorem made_makeDirectory {path : String} (h : d.makeDirectory path = .ok d') (hpath : path ∈ paths) :
    Made paths d d' := by
  obtain ⟨l, hl, hnone, rfl⟩ := makeDirectory_eq_ok h
  have hroot : l ≠ [] := by
    rintro rfl
    cases hnone
  refine ⟨rfl, fun l' => ?_⟩
  by_cases hsame : l' = l
  · rw [hsame]
    exact Or.inr ⟨hnone, node?_put_self hroot _, path, hpath, (extends_put hnone _).keeps.target hl⟩
  · exact Or.inl (node?_put_of_ne hsame _)

end Disk

namespace FileStore
variable {d d' : Disk} {path : String} {outer : List String}

theorem run_makeDirectory_of_ok (h : d.makeDirectory path = .ok d') :
    (makeDirectory path : StateM Disk _).run d = (.ok (), d') := by
  show Disk.attempt (fun d => d.makeDirectory path) d = _
  unfold Disk.attempt
  simp only [h]

theorem run_makeDirectory_of_error {e : FileError} (h : d.makeDirectory path = .error e) :
    (makeDirectory path : StateM Disk _).run d = (.error e, d) := by
  show Disk.attempt (fun d => d.makeDirectory path) d = _
  unfold Disk.attempt
  simp only [h]

/-- A directory whose parent is there is made alone. -/
theorem run_makeNested_of_ok (hpath : path.isEmpty = false) (h : d.makeDirectory path = .ok d') :
    (makeNested (path :: outer) : StateM Disk _).run d = (.ok (), d') := by
  unfold makeNested
  simp only [hpath, Bool.false_eq_true, if_false]
  refine (StateT.run_bind _ _ _ : _ = _).trans ?_
  rw [run_makeDirectory_of_ok h]
  rfl

/-- A path that leads nowhere for want of its parents may lead to a directory once they are made. -/
theorem run_makeNested_of_there (hpath : path.isEmpty = false) (hmissing : d.makeDirectory path = .error .notFound)
    (houter : (makeNested outer : StateM Disk _).run d = (.ok (), d'))
    (hagain : d'.makeDirectory path = .error .alreadyExists) (hthere : d'.holdsDirectory path = true) :
    (makeNested (path :: outer) : StateM Disk _).run d = (.ok (), d') := by
  have hholds : (holdsDirectory path : StateM Disk Bool).run d' = (true, d') := by
    rw [← hthere]
    rfl
  unfold makeNested
  simp only [hpath, Bool.false_eq_true, if_false]
  refine (StateT.run_bind _ _ _ : _ = _).trans ?_
  rw [run_makeDirectory_of_error hmissing]
  refine (StateT.run_bind _ _ _ : _ = _).trans ?_
  rw [houter]
  refine (StateT.run_bind _ _ _ : _ = _).trans ?_
  rw [run_makeDirectory_of_error hagain]
  refine (StateT.run_bind _ _ _ : _ = _).trans ?_
  rw [hholds]
  rfl

end FileStore

/-- The program makes directories at some of the paths and changes nothing else. -/
def Makes {α : Type} (paths : List String) (program : StateM Disk α) : Prop :=
  ∀ d : Disk, d.Made paths (program.run d).2

namespace Makes
variable {α β : Type} {paths : List String} {program : StateM Disk α}

theorem pure (a : α) : Makes paths (Pure.pure a : StateM Disk α) := Disk.Made.refl paths

theorem bind {next : α → StateM Disk β} (h : Makes paths program) (hnext : ∀ a, Makes paths (next a)) :
    Makes paths (program >>= next) := fun d => (h d).trans (hnext _ _)

theorem holds (path : String) : Makes paths (FileStore.holds path : StateM Disk Bool) := Disk.Made.refl paths

theorem holdsDirectory (path : String) : Makes paths (FileStore.holdsDirectory path : StateM Disk Bool) :=
  Disk.Made.refl paths

theorem makeDirectory {path : String} (hpath : path ∈ paths) :
    Makes paths (FileStore.makeDirectory path : StateM Disk _) := by
  intro d
  cases ho : d.makeDirectory path with
  | error e =>
    rw [FileStore.run_makeDirectory_of_error ho]
    exact .refl paths d
  | ok d' =>
    rw [FileStore.run_makeDirectory_of_ok ho]
    exact Disk.made_makeDirectory ho hpath

theorem settle (path : String) (result : Except FileError Unit) :
    Makes paths (FileStore.settle path result : StateM Disk _) := by
  cases result with
  | ok u => exact pure _
  | error e =>
    refine bind (holdsDirectory path) fun there => ?_
    cases there
    · exact pure _
    · exact pure _

theorem makeNested {inner : List String} (h : ∀ path ∈ inner, path ∈ paths) :
    Makes paths (FileStore.makeNested inner : StateM Disk _) := by
  induction inner with
  | nil => exact pure _
  | cons path outer ih =>
    have hpath : path ∈ paths := h path List.mem_cons_self
    unfold FileStore.makeNested
    cases path.isEmpty with
    | true => exact pure _
    | false =>
      refine bind (makeDirectory hpath) fun result => ?_
      rcases result with e | u
      · cases e with
        | notFound =>
          refine bind (ih fun p hp => h p (List.mem_cons_of_mem path hp)) fun made => ?_
          cases made with
          | error e => exact pure _
          | ok u => exact bind (makeDirectory hpath) fun again => settle path again
        | _ => exact settle path _
      · exact settle path _

end Makes

/-! ### Writing a file -/

namespace OutputFile
variable {d d' : Disk}

/-- The file cannot be written, which leaves the disk in another state. The error is about the directory that is to
    hold it, which cannot be made, or about the file itself, which cannot be put there. -/
inductive Refused (f : OutputFile) (d : Disk) : WriteError → Disk → Prop
  | directory {parent : String} {why : FileError} {d' : Disk} (hparent : Path.parent? f.path = some parent)
    (hmissing : d.holds parent = false)
    (hmake : (FileStore.makeDirectories parent : StateM Disk _).run d = (.error why, d')) :
    Refused f d (.directory parent why) d'
  | file {why : FileError} {d' : Disk} (hmade : d.Extends d')
    (hwrite : d'.write f.path (.text f.content) = .error why) : Refused f d (.file f.path why) d'

/-- The paths that hold the file, innermost first. -/
def ancestors (f : OutputFile) : List String := (Path.ancestors f.path).tail

theorem makes_prepare (f : OutputFile) : Makes f.ancestors (f.prepare : StateM Disk _) := by
  unfold prepare
  cases hparent : Path.parent? f.path with
  | none => exact Makes.pure _
  | some parent =>
    have hancestors : f.ancestors = Path.ancestors parent := by
      rw [ancestors, Path.ancestors_of_parent hparent, List.tail_cons]
    simp only
    cases parent.isEmpty with
    | true => exact Makes.pure _
    | false =>
      refine Makes.bind (Makes.holds parent) fun there => ?_
      cases there with
      | true => exact Makes.pure _
      | false =>
        refine Makes.bind (Makes.makeNested fun path hpath => hancestors ▸ hpath) fun result => ?_
        cases result with
        | ok u => exact Makes.pure _
        | error e => exact Makes.pure _

/-- A directory that is missing is made, and the error names it when it cannot be. -/
theorem run_prepare {f : OutputFile} {parent : String} (hparent : Path.parent? f.path = some parent) (d : Disk) :
    (f.prepare : StateM Disk _).run d =
      if parent.isEmpty = true ∨ d.holds parent = true then (.ok (), d)
      else
        match (FileStore.makeDirectories parent : StateM Disk _).run d with
        | (.ok _, d₁) => (.ok (), d₁)
        | (.error why, d₁) => (.error (.directory parent why), d₁) := by
  unfold prepare
  rw [hparent]
  cases hempty : parent.isEmpty with
  | true =>
    simp only [hempty, true_or, if_true]
    rfl
  | false =>
    simp only [hempty, Bool.false_eq_true, if_false, false_or]
    refine (StateT.run_bind _ _ _ : _ = _).trans ?_
    have hholds : (FileStore.holds parent : StateM Disk Bool).run d = (d.holds parent, d) := rfl
    rw [hholds]
    cases d.holds parent with
    | true => rfl
    | false =>
      refine (StateT.run_bind _ _ _ : _ = _).trans ?_
      rcases (FileStore.makeDirectories parent : StateM Disk _).run d with ⟨_ | _, _⟩
      · rfl
      · rfl

theorem refused_of_prepare {f : OutputFile} {e : WriteError}
    (h : (f.prepare : StateM Disk _).run d = (.error e, d')) : f.Refused d e d' := by
  cases hparent : Path.parent? f.path with
  | none =>
    unfold prepare at h
    rw [hparent] at h
    cases h
  | some parent =>
    rw [run_prepare hparent] at h
    split at h
    · cases h
    · rename_i hneeded
      rcases hmake : (FileStore.makeDirectories parent : StateM Disk _).run d with ⟨why | _, _⟩
      · rw [hmake] at h
        cases h
        rw [not_or, Bool.not_eq_true, Bool.not_eq_true] at hneeded
        exact .directory hparent hneeded.2 hmake
      · rw [hmake] at h
        cases h

theorem run_write (f : OutputFile) (d : Disk) : (f.write false : StateM Disk _).run d =
    match (f.prepare : StateM Disk _).run d with
    | (.error e, d₁) => (.error e, d₁)
    | (.ok _, d₁) =>
      match d₁.write f.path (.text f.content) with
      | .ok d₂ => (.ok (.written f.path f.content.utf8ByteSize), d₂)
      | .error e => (.error (.file f.path e), d₁) := by
  refine (StateT.run_bind _ _ _ : (f.write false : StateM Disk _).run d = _).trans ?_
  rcases (f.prepare : StateM Disk _).run d with ⟨_ | _, d₁⟩
  · rfl
  · refine (StateT.run_bind _ _ _ : _ = _).trans ?_
    have hwrite : (FileStore.writeText f.path f.content : StateM Disk _).run d₁ =
        match d₁.write f.path (.text f.content) with
        | .ok d₂ => (.ok (), d₂)
        | .error e => (.error e, d₁) := rfl
    rw [hwrite]
    cases hw : d₁.write f.path (.text f.content) with
    | error e =>
      simp only [hw]
      rfl
    | ok d₂ =>
      simp only [hw]
      rfl

/-- A file whose directory is there is written into it. -/
theorem run_write_of_parent {f : OutputFile} {parent : String} (hparent : Path.parent? f.path = some parent)
    (hthere : d.holds parent = true) (hwrite : d.write f.path (.text f.content) = .ok d') :
    (f.write false : StateM Disk _).run d = (.ok (.written f.path f.content.utf8ByteSize), d') := by
  have hprepare : (f.prepare : StateM Disk _).run d = (.ok (), d) := by
    rw [run_prepare hparent, if_pos (Or.inr hthere)]
  rw [run_write, hprepare]
  simp only [hwrite]

/-- Writing a file makes directories that it lacks and then puts its text at the location of its path, or fails with
    an error that says why it cannot be written. -/
theorem write_effect (f : OutputFile) {result : Except WriteError WriteResult}
    (h : (f.write false : StateM Disk _).run d = (result, d')) :
    match result with
    | .ok _ => ∃ d₁ l, d.Made f.ancestors d₁ ∧ d₁.locate f.path = .ok l ∧ d₁.node? l ≠ some .directory ∧
        d' = d₁.put l (.file (.text f.content))
    | .error e => f.Refused d e d' ∧ d.Made f.ancestors d' := by
  have hmade := makes_prepare f d
  rw [run_write] at h
  rcases hp : (f.prepare : StateM Disk _).run d with ⟨e | _, d₁⟩
  · rw [hp] at h hmade
    cases h
    exact ⟨refused_of_prepare hp, hmade⟩
  · rw [hp] at h hmade
    cases hw : d₁.write f.path (.text f.content) with
    | error why =>
      simp only [hw] at h
      cases h
      exact ⟨.file hmade.toExtends hw, hmade⟩
    | ok d₂ =>
      simp only [hw] at h
      cases h
      obtain ⟨l, hlocate, hfree, hput⟩ := Disk.write_eq_ok hw
      exact ⟨d₁, l, hmade, hlocate, hfree, hput⟩

/-! ### Writing a list of files -/

theorem run_writeAll_cons (f : OutputFile) (fs : List OutputFile) (d : Disk) :
    (writeAll false (f :: fs) : StateM Disk _).run d =
      match (f.write false : StateM Disk _).run d with
      | (.error e, d₁) => (.error e, d₁)
      | (.ok r, d₁) =>
        match (writeAll false fs : StateM Disk _).run d₁ with
        | (.error e, d₂) => (.error e, d₂)
        | (.ok rs, d₂) => (.ok (r :: rs), d₂) := by
  refine (StateT.run_bind _ _ _ : (writeAll false (f :: fs) : StateM Disk _).run d = _).trans ?_
  rcases (f.write false : StateM Disk _).run d with ⟨_ | _, d₁⟩
  · rfl
  · refine (StateT.run_bind _ _ _ : _ = _).trans ?_
    rcases hrest : (writeAll false fs : StateM Disk _).run d₁ with ⟨_ | _, d₂⟩
    · simp only [hrest]
      rfl
    · simp only [hrest]
      rfl

/-- A dry run shows every file and writes none. -/
theorem run_writeAll_dry (files : List OutputFile) (d : Disk) : (writeAll true files : StateM Disk _).run d =
    (.ok (files.map fun f => .preview f.path f.content), d) := by
  induction files with
  | nil => rfl
  | cons f fs ih =>
    refine (StateT.run_bind _ _ _ : (writeAll true (f :: fs) : StateM Disk _).run d = _).trans ?_
    have hwrite : (f.write true : StateM Disk _).run d = (.ok (.preview f.path f.content), d) := rfl
    rw [hwrite]
    refine (StateT.run_bind _ _ _ : _ = _).trans ?_
    rw [ih]
    rfl

/-- A file whose directory is there is written before the rest. -/
theorem run_writeAll_of_parent {f : OutputFile} {fs : List OutputFile} {parent : String} {d₁ : Disk}
    {results : List WriteResult} (hparent : Path.parent? f.path = some parent) (hthere : d.holds parent = true)
    (hwrite : d.write f.path (.text f.content) = .ok d₁)
    (hrest : (writeAll false fs : StateM Disk _).run d₁ = (.ok results, d')) :
    (writeAll false (f :: fs) : StateM Disk _).run d =
      (.ok (.written f.path f.content.utf8ByteSize :: results), d') := by
  rw [run_writeAll_cons, run_write_of_parent hparent hthere hwrite]
  simp only [hrest]

/-- The last of the files whose path leads to a location. -/
def IsLastAt (d : Disk) (files : List OutputFile) (l : Location) (f : OutputFile) : Prop :=
  ∃ earlier later, files = earlier ++ f :: later ∧ d.locate f.path = .ok l ∧ ∀ g ∈ later, d.locate g.path ≠ .ok l

theorem IsLastAt.cons {files : List OutputFile} {l : Location} {f : OutputFile} (h : IsLastAt d files l f)
    (g : OutputFile) : IsLastAt d (g :: files) l f := by
  obtain ⟨earlier, later, rfl, hlocate, hlater⟩ := h
  exact ⟨g :: earlier, later, rfl, hlocate, hlater⟩

theorem IsLastAt.mem {files : List OutputFile} {l : Location} {f : OutputFile} (h : IsLastAt d files l f) :
    f ∈ files := by
  obtain ⟨earlier, later, rfl, -, -⟩ := h
  exact List.mem_append_right _ List.mem_cons_self

theorem IsLastAt.locate {files : List OutputFile} {l : Location} {f : OutputFile} (h : IsLastAt d files l f) :
    d.locate f.path = .ok l := by
  obtain ⟨_, _, _, hlocate, _⟩ := h
  exact hlocate

/-- What a run over a list of files leaves: directories are kept, other locations hold what they held, and the
    location of every file holds the text of the last file there. -/
structure Written (files : List OutputFile) (d d' : Disk) : Prop where
  keeps : d.Keeps d'
  frame : ∀ l n, (∀ f ∈ files, d'.locate f.path ≠ .ok l) → d.node? l = some n → d'.node? l = some n
  last : ∀ f ∈ files, ∃ l g, d'.locate f.path = .ok l ∧ IsLastAt d' files l g ∧
    d'.node? l = some (.file (.text g.content))

/-- How a disk stands when some files have been written and directories were made for those that were tried: the
    location of every written file holds the text of the last one there, and anywhere else nothing has changed but
    for the directories that were missing. -/
structure Progress (written tried : List OutputFile) (d d' : Disk) : Prop where
  keeps : d.Keeps d'
  last : ∀ f ∈ written, ∃ l g, d'.locate f.path = .ok l ∧ IsLastAt d' written l g ∧
    d'.node? l = some (.file (.text g.content))
  frame : ∀ l, (∀ f ∈ written, d'.locate f.path ≠ .ok l) →
    d'.node? l = d.node? l ∨ Disk.NewDirectory (tried.flatMap ancestors) d d' l

namespace Progress
variable {written tried : List OutputFile} {f : OutputFile} {d₁ : Disk} {l : Location}

theorem of_made (h : d.Made (tried.flatMap ancestors) d') : Progress [] tried d d' :=
  ⟨h.toExtends.keeps, fun _ hf => absurd hf List.not_mem_nil, fun l _ => h.node l⟩

theorem refl (d : Disk) : Progress [] [] d d := of_made (.refl _ d)

/-- What stands somewhere else after a file is written and the rest have followed. -/
theorem node_cons (hmade : d.Made f.ancestors d₁) (hfree : d₁.node? l ≠ some .directory)
    (rest : Progress written tried (d₁.put l (.file (.text f.content))) d') {l' : Location} (hne : l' ≠ l)
    (hl' : ∀ g ∈ written, d'.locate g.path ≠ .ok l') :
    d'.node? l' = d.node? l' ∨ Disk.NewDirectory ((f :: tried).flatMap ancestors) d d' l' := by
  have hput := Disk.keeps_put hfree (.file (.text f.content))
  refine Disk.node_trans rest.keeps ?_ ?_
  · rw [Disk.node?_put_of_ne hne]
    rcases hmade.node l' with hsame | hnew
    · exact Or.inl hsame
    · exact Or.inr ((hnew.of_keeps hput).mono fun path hpath => List.mem_append_left _ hpath)
  · rcases rest.frame l' hl' with hsame | hnew
    · exact Or.inl hsame
    · exact Or.inr (hnew.mono fun path hpath => List.mem_append_right _ hpath)

theorem cons (hmade : d.Made f.ancestors d₁) (hlocate : d₁.locate f.path = .ok l)
    (hfree : d₁.node? l ≠ some .directory)
    (rest : Progress written tried (d₁.put l (.file (.text f.content))) d') :
    Progress (f :: written) (f :: tried) d d' := by
  have hput := Disk.keeps_put hfree (.file (.text f.content))
  have hlocate' : d'.locate f.path = .ok l := (hput.trans rest.keeps).locate hlocate
  refine ⟨hmade.toExtends.keeps.trans (hput.trans rest.keeps), fun g hg => ?_, fun l' hl' => ?_⟩
  · rcases List.mem_cons.mp hg with rfl | hg
    · -- The file is the last at its location unless one of the rest has the same.
      by_cases hsame : ∃ h ∈ written, d'.locate h.path = .ok l
      · obtain ⟨h, hh, hl⟩ := hsame
        obtain ⟨l', k, hl', hlast, hk⟩ := rest.last h hh
        cases hl.symm.trans hl'
        exact ⟨l, k, hlocate', hlast.cons g, hk⟩
      · have hothers : ∀ h ∈ written, d'.locate h.path ≠ .ok l := fun h hh hl => hsame ⟨h, hh, hl⟩
        have hself := Disk.node?_put_self (Disk.ne_nil_of_not_directory hfree) (d := d₁) (.file (.text g.content))
        refine ⟨l, g, hlocate', ⟨[], written, rfl, hlocate', hothers⟩, ?_⟩
        rcases rest.frame l hothers with hkept | ⟨hnone, -⟩
        · rw [hkept, hself]
        · rw [hself] at hnone
          cases hnone
    · obtain ⟨l', k, hl', hlast, hk⟩ := rest.last g hg
      exact ⟨l', k, hl', hlast.cons f, hk⟩
  · have hne : l' ≠ l := by
      rintro rfl
      exact hl' f List.mem_cons_self hlocate'
    exact node_cons hmade hfree rest hne fun g hg => hl' g (List.mem_cons_of_mem f hg)

end Progress

/-- A run over a list of files writes them all, or writes those before one that it then fails on. -/
theorem writeAll_effect {files : List OutputFile} {result : Except WriteError (List WriteResult)}
    (h : (writeAll false files : StateM Disk _).run d = (result, d')) :
    match result with
    | .ok _ => Progress files files d d'
    | .error e => ∃ before f after between, files = before ++ f :: after ∧ Progress before before d between ∧
        f.Refused between e d' ∧ Progress before (before ++ [f]) d d' := by
  induction files generalizing d result with
  | nil =>
    cases h
    exact Progress.refl _
  | cons f fs ih =>
    rw [run_writeAll_cons] at h
    rcases hwrite : (f.write false : StateM Disk _).run d with ⟨e | r, d₁⟩
    · rw [hwrite] at h
      cases h
      obtain ⟨hrefused, hmade⟩ := write_effect f hwrite
      refine ⟨[], f, fs, d, rfl, Progress.refl d, hrefused, Progress.of_made ?_⟩
      simpa using hmade
    · obtain ⟨d₂, l, hmade, hlocate, hfree, rfl⟩ := write_effect f hwrite
      simp only [hwrite] at h
      rcases hrest : (writeAll false fs : StateM Disk _).run _ with ⟨e | rest, d₃⟩
      · rw [hrest] at h
        cases h
        obtain ⟨before, g, after, between, rfl, hbetween, hrefused, hprogress⟩ := ih hrest
        exact ⟨f :: before, g, after, between, rfl, hbetween.cons hmade hlocate hfree, hrefused,
          hprogress.cons hmade hlocate hfree⟩
      · rw [hrest] at h
        cases h
        exact (ih hrest).cons hmade hlocate hfree

theorem written_of_writeAll {files : List OutputFile} {results : List WriteResult}
    (h : (writeAll false files : StateM Disk _).run d = (.ok results, d')) : Written files d d' := by
  have hprogress := writeAll_effect h
  refine ⟨hprogress.keeps, fun l n hl hn => ?_, hprogress.last⟩
  rcases hprogress.frame l hl with hsame | ⟨hnone, -⟩
  · rw [hsame, hn]
  · rw [hn] at hnone
    cases hnone

namespace Written
variable {files : List OutputFile}

/-- Every file's path reads the text of the last file at its location. -/
theorem readText_last (w : Written files d d') {f : OutputFile} (hf : f ∈ files) :
    ∃ l g, d'.locate f.path = .ok l ∧ IsLastAt d' files l g ∧ d'.readText f.path = .ok g.content := by
  obtain ⟨l, g, hlocate, hlast, hnode⟩ := w.last f hf
  exact ⟨l, g, hlocate, hlast, Disk.readText_of_locate hlocate hnode⟩

/-- No text is lost exactly when files with one location have one text. -/
theorem readText_iff (w : Written files d d') : (∀ f ∈ files, d'.readText f.path = .ok f.content) ↔
    ∀ f ∈ files, ∀ g ∈ files, d'.locate f.path = d'.locate g.path → f.content = g.content := by
  constructor
  · intro h f hf g hg hsame
    have hread := Disk.readText_congr hsame
    rw [h f hf, h g hg] at hread
    exact Except.ok.inj hread
  · intro h f hf
    obtain ⟨l, g, hlocate, hlast, hread⟩ := w.readText_last hf
    rw [hread, h f hf g hlast.mem (hlocate.trans hlast.locate.symm)]

end Written

end OutputFile

end SchemaForge
