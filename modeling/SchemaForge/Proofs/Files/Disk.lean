import SchemaForge.Files.Disk
import SchemaForge.Proofs.Except
import SchemaForge.Proofs.Files.Path

/-! What the operations of a disk keep. None of them takes a directory away, so a path that leads to a
    location leads there for good, and making directories changes nothing that is there. A file that is
    written is at the location of its path. -/

namespace SchemaForge

namespace Disk
variable {d d' d'' : Disk} {l : Location} {path : String}

theorem lookup_filter_of_ne {l' : Location} (h : l' ≠ l) (entries : List (Location × Node)) :
    (entries.filter (·.1 ≠ l)).lookup l' = entries.lookup l' := by
  induction entries with
  | nil => rfl
  | cons e entries ih =>
    by_cases he : e.1 = l
    · have hne : (l' == e.1) = false := beq_false_of_ne (he ▸ h)
      rw [List.filter_cons_of_neg (by simpa using he), ih, List.lookup_cons, hne]
    · rw [List.filter_cons_of_pos (by simpa using he), List.lookup_cons, List.lookup_cons, ih]

theorem node?_put_self (hl : l ≠ []) (n : Node) : (d.put l n).node? l = some n := by
  rw [node?, if_neg hl, put, List.lookup_cons, BEq.rfl]

theorem node?_put_of_ne {l' : Location} (h : l' ≠ l) (n : Node) : (d.put l n).node? l' = d.node? l' := by
  have hne : (l' == l) = false := beq_false_of_ne h
  rw [node?, node?, put, List.lookup_cons, hne, lookup_filter_of_ne h]

theorem ne_nil_of_not_directory (h : d.node? l ≠ some .directory) : l ≠ [] := by
  rintro rfl
  exact h rfl

/-! ### Disks that keep the directories of another -/

/-- Every directory is still one, and relative paths still start at the same one. -/
structure Keeps (d d' : Disk) : Prop where
  here : d'.here = d.here
  directory : ∀ l, d.node? l = some .directory → d'.node? l = some .directory

/-- Every location that holds something still holds it, and relative paths still start at the same one. -/
structure Extends (d d' : Disk) : Prop where
  here : d'.here = d.here
  node : ∀ l n, d.node? l = some n → d'.node? l = some n

theorem Extends.keeps (h : d.Extends d') : d.Keeps d' := ⟨h.here, fun l => h.node l .directory⟩

theorem Keeps.refl (d : Disk) : d.Keeps d := ⟨rfl, fun _ h => h⟩

theorem Keeps.trans (h : d.Keeps d') (h' : d'.Keeps d'') : d.Keeps d'' :=
  ⟨h'.here.trans h.here, fun l hl => h'.directory l (h.directory l hl)⟩

theorem extends_put (h : d.node? l = none) (n : Node) : d.Extends (d.put l n) := by
  refine ⟨rfl, fun l' n' hn' => ?_⟩
  have hne : l' ≠ l := by
    rintro rfl
    rw [h] at hn'
    cases hn'
  rw [node?_put_of_ne hne, hn']

theorem keeps_put (h : d.node? l ≠ some .directory) (n : Node) : d.Keeps (d.put l n) := by
  refine ⟨rfl, fun l' hl' => ?_⟩
  have hne : l' ≠ l := by
    rintro rfl
    exact h hl'
  rw [node?_put_of_ne hne, hl']

/-! ### Looking up paths -/

theorem directory_of_enter {l' : Location} {name : String} (h : d.enter l name = .ok l') :
    d.node? l = some .directory := by
  unfold enter at h
  cases hn : d.node? l with
  | none =>
    rw [hn] at h
    cases h
  | some n =>
    cases n with
    | directory => rfl
    | file content =>
      rw [hn] at h
      cases h

theorem Keeps.enter (k : d.Keeps d') {l' : Location} {name : String} (h : d.enter l name = .ok l') :
    d'.enter l name = .ok l' := by
  have hdir := directory_of_enter h
  unfold Disk.enter at h ⊢
  rw [hdir] at h
  rw [k.directory l hdir]
  exact h

theorem follow_cons (d : Disk) (l : Location) (name : String) (names : List String) :
    d.follow l (name :: names) = d.enter l name >>= fun l => d.follow l names := List.foldlM_cons

theorem follow_concat_eq_ok {names : List String} {name : String} {l' : Location} :
    d.follow l (names ++ [name]) = .ok l' ↔ ∃ outer, d.follow l names = .ok outer ∧ d.enter outer name = .ok l' := by
  have happend : d.follow l (names ++ [name]) = d.follow l names >>= fun outer => d.follow outer [name] :=
    List.foldlM_append
  have hone : ∀ outer, d.follow outer [name] = d.enter outer name := by
    intro outer
    rw [follow_cons]
    cases d.enter outer name <;> rfl
  rw [happend, bind_eq_ok]
  simp only [hone]

theorem Keeps.follow (k : d.Keeps d') {l' : Location} (names : List String) (h : d.follow l names = .ok l') :
    d'.follow l names = .ok l' := by
  induction names generalizing l with
  | nil => exact h
  | cons name names ih =>
    rw [follow_cons, bind_eq_ok] at h ⊢
    obtain ⟨inner, henter, hrest⟩ := h
    exact ⟨inner, k.enter henter, ih hrest⟩

theorem locate_eq_ok : d.locate path = .ok l ↔
    checkPath path = .ok () ∧ d.follow (d.origin path) (Path.names path) = .ok l := by
  rw [locate, bind_eq_ok]
  exact ⟨fun ⟨_, hcheck, h⟩ => ⟨hcheck, h⟩, fun ⟨hcheck, h⟩ => ⟨(), hcheck, h⟩⟩

theorem Keeps.locate (k : d.Keeps d') (h : d.locate path = .ok l) : d'.locate path = .ok l := by
  obtain ⟨hcheck, hfollow⟩ := locate_eq_ok.mp h
  have horigin : d'.origin path = d.origin path := by rw [origin, origin, k.here]
  exact locate_eq_ok.mpr ⟨hcheck, horigin ▸ k.follow _ hfollow⟩

theorem target_eq_ok : d.target path = .ok l ↔
    checkPath path = .ok () ∧ d.follow (d.origin path) (Path.names (Path.trimSlashes path)) = .ok l := by
  rw [target, bind_eq_ok]
  exact ⟨fun ⟨_, hcheck, h⟩ => ⟨hcheck, h⟩, fun ⟨hcheck, h⟩ => ⟨(), hcheck, h⟩⟩

theorem Keeps.target (k : d.Keeps d') (h : d.target path = .ok l) : d'.target path = .ok l := by
  obtain ⟨hcheck, hfollow⟩ := target_eq_ok.mp h
  have horigin : d'.origin path = d.origin path := by rw [origin, origin, k.here]
  exact target_eq_ok.mpr ⟨hcheck, horigin ▸ k.follow _ hfollow⟩

/-- A name that stands for no directory is the last of the location that it leads to. -/
theorem eq_of_enter {l' : Location} {name : String} (hname : name ∉ ["", ".", ".."]) (h : d.enter l name = .ok l') :
    l' = l ++ [name] := by
  have hdir := directory_of_enter h
  simp only [List.mem_cons, List.not_mem_nil, or_false, not_or] at hname
  obtain ⟨hempty, hdot, hup⟩ := hname
  unfold enter at h
  simp only [hdir, hempty, hdot, hup, or_self, if_false] at h
  by_cases hlong : maxName < name.utf8ByteSize
  · rw [if_pos hlong] at h
    cases h
  · rw [if_neg hlong] at h
    cases h
    rfl

/-- Different names below a directory lead to different locations. -/
theorem eq_of_locate_lead {directory x y : String} (hx : '/' ∉ x.toList) (hy : '/' ∉ y.toList)
    (hidle : x ∉ ["", ".", ".."]) (hidle' : y ∉ ["", ".", ".."])
    (h : d.locate (Path.lead directory ++ x) = .ok l) (h' : d.locate (Path.lead directory ++ y) = .ok l) :
    x = y := by
  obtain ⟨outer, hnames⟩ := Path.names_lead directory
  obtain ⟨absolute, habs⟩ := Path.isAbsolute_lead directory
  obtain ⟨-, hfollow⟩ := locate_eq_ok.mp h
  obtain ⟨-, hfollow'⟩ := locate_eq_ok.mp h'
  rw [origin, habs x hx, hnames x hx, follow_concat_eq_ok] at hfollow
  rw [origin, habs y hy, hnames y hy, follow_concat_eq_ok] at hfollow'
  obtain ⟨holder, hholder, henter⟩ := hfollow
  obtain ⟨holder', hholder', henter'⟩ := hfollow'
  cases hholder.symm.trans hholder'
  have hlast := (eq_of_enter hidle henter).symm.trans (eq_of_enter hidle' henter')
  exact (List.cons.inj (List.append_cancel_left hlast)).1

theorem readText_of_locate {text : String} (h : d.locate path = .ok l) (hn : d.node? l = some (.file (.text text))) :
    d.readText path = .ok text := by
  rw [readText, bind_eq_ok]
  refine ⟨l, h, ?_⟩
  rw [hn]
  rfl

/-- Paths that lead to one location read the same. -/
theorem readText_congr {path' : String} (h : d.locate path = d.locate path') :
    d.readText path = d.readText path' := by
  rw [readText, readText, h]

/-! ### Operations -/

/-- Making a directory puts it at the location that its path names, which held nothing. -/
theorem makeDirectory_eq_ok (h : d.makeDirectory path = .ok d') :
    ∃ l, d.target path = .ok l ∧ d.node? l = none ∧ d' = d.put l .directory := by
  unfold makeDirectory at h
  obtain ⟨l, hl, h⟩ := bind_eq_ok.mp h
  cases hn : d.node? l with
  | some n =>
    rw [hn] at h
    cases h
  | none =>
    rw [hn] at h
    cases h
    exact ⟨l, hl, hn, rfl⟩

theorem enter_empty {l' : Location} (h : d.enter l "" = .ok l') : l' = l := by
  have hdir := directory_of_enter h
  unfold enter at h
  rw [hdir] at h
  cases h
  rfl

/-- Writing a file puts its content at the location of its path, which was no directory. -/
theorem write_eq_ok {content : FileContent} (h : d.write path content = .ok d') :
    ∃ l, d.locate path = .ok l ∧ d.node? l ≠ some .directory ∧ d' = d.put l (.file content) := by
  unfold write at h
  obtain ⟨_, hcheck, h⟩ := bind_eq_ok.mp h
  obtain ⟨holder, hholder, h⟩ := bind_eq_ok.mp h
  cases hslash : Path.endsInSlash path with
  | true =>
    rw [hslash] at h
    cases h
  | false =>
    rw [hslash] at h
    obtain ⟨l, henter, h⟩ := bind_eq_ok.mp h
    rw [Path.trimSlashes_eq_self hslash] at hholder henter
    obtain ⟨outer, houter, hempty⟩ := follow_concat_eq_ok.mp hholder
    obtain rfl := enter_empty hempty
    -- The holder is looked up by the names before the last, so the path itself leads where the last name does.
    have hnames : (Path.names path).dropLast ++ [(Path.names path).getLastD ""] = Path.names path := by
      rw [List.getLastD_eq_getLast?, List.getLast?_eq_some_getLast (Path.names_ne_nil path), Option.getD_some,
        List.dropLast_concat_getLast]
    have hfollow := follow_concat_eq_ok.mpr ⟨holder, houter, henter⟩
    rw [hnames] at hfollow
    refine ⟨l, locate_eq_ok.mpr ⟨hcheck, hfollow⟩, ?_⟩
    rcases hn : d.node? l with _ | _ | _
    · rw [hn] at h
      cases h
      exact ⟨fun h => (nomatch h), rfl⟩
    · rw [hn] at h
      cases h
      exact ⟨fun h => (nomatch h), rfl⟩
    · rw [hn] at h
      cases h

end Disk

end SchemaForge
