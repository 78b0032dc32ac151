import SchemaForge.Proofs.Files.Disk

/-! What a path reads. Looking whether there is a file and reading it are one reading, which depends on the location
    that the path leads to and on what that location holds. -/

namespace SchemaForge

namespace Disk
variable {d : Disk} {l : Location} {path : String}

/-- What a path reads: nothing if it leads to nothing, or else a text or why there is none. -/
def reading (d : Disk) (path : String) : Option (Except FileError String) :=
  if d.holds path then some (d.readText path) else none

/-- What a location is read as. -/
def Node.reading : Node → Except FileError String
  | .file (.text s) => .ok s
  | .file (.bytes _) => .error .notText
  | .directory => .error .isDirectory

theorem reading_of_locate (h : d.locate path = .ok l) : d.reading path = (d.node? l).map Node.reading := by
  simp only [reading, holds, find?, readText, h, bind, Except.bind]
  rcases d.node? l with _ | ⟨_ | _⟩ | _ <;> rfl

theorem reading_of_error {e : FileError} (h : d.locate path = .error e) : d.reading path = none := by
  unfold reading holds find?
  rw [h]
  rfl

/-- A program that reads a whole file depends on what its path reads, and leaves the disk as it is. -/
theorem run_read {α : Type} {path : String} {absent : α} {refused : FileError → α}
    {taken : String → StateM Disk α} (make : String → α) (h : ∀ text, (taken text).run d = (make text, d)) :
    (do
      if ← FileStore.holds path then
        match ← FileStore.readText path with
        | .error e => return refused e
        | .ok text => taken text
      else return absent : StateM Disk α).run d =
    (match d.reading path with
      | none => absent
      | some (.error e) => refused e
      | some (.ok text) => make text, d) := by
  have hholds : (FileStore.holds path : StateM Disk Bool).run d = (d.holds path, d) := rfl
  have hread : (FileStore.readText path : StateM Disk _).run d = (d.readText path, d) := rfl
  unfold reading
  refine (StateT.run_bind _ _ _ : _ = _).trans ?_
  rw [hholds]
  cases d.holds path with
  | false => rfl
  | true =>
    refine (StateT.run_bind _ _ _ : _ = _).trans ?_
    rw [hread]
    cases d.readText path with
    | error e => rfl
    | ok text => exact h text

end Disk

end SchemaForge
