import SchemaForge.Proofs.Except
import SchemaForge.Proofs.Toml.Ordered
import SchemaForge.Toml.Decode

/-! What decoding makes of the tables of configuration files. A record takes the value of each of its keys out of a
    table, whatever the order, and passes over what stands under other keys, as long as the numbers there can be
    held. -/

namespace SchemaForge

namespace Toml

/-! ### Kinds of values -/

def Value.isString : Value → Bool
  | .string _ => true
  | _ => false

/-- A table with values of one kind. -/
def Value.isTableOf (kind : Value → Bool) : Value → Bool
  | .table _ entries => entries.all fun e => kind e.2.node.value
  | _ => false

/-- A table in which these keys, where they are there, have values of their kinds. -/
def Value.isTableWith (fields : List (String × (Value → Bool))) : Value → Bool
  | .table _ entries => fields.all fun f => (entries.lookup f.1).all fun e => f.2 e.node.value
  | _ => false

/-- The text of a string. -/
def Entry.text (e : Entry) : String :=
  match e.node.value with
  | .string s => s
  | _ => ""

/-- The entries of a table. -/
def Entry.inner (e : Entry) : Entries :=
  match e.node.value with
  | .table _ entries => entries
  | _ => []

/-- The texts in a table of strings, under their keys. -/
def Entry.texts (e : Entry) : List (String × String) := e.inner.map fun p => (p.1, p.2.text)

theorem Value.Ordered.inner {e : Entry} (h : e.node.value.Ordered) : e.inner.Ordered := by
  unfold Entry.inner
  cases hv : e.node.value with
  | table origin entries => exact (hv ▸ h).entries
  | _ => exact .nil

theorem Value.kind_of_isTableWith {fields : List (String × (Value → Bool))} {origin : Origin} {entries : Entries}
    (h : (Value.table origin entries).isTableWith fields = true) (hentries : entries.Ordered) {e : String × Entry}
    (he : e ∈ entries) : ∀ f ∈ fields, f.1 = e.1 → f.2 e.2.node.value = true := by
  rintro f hf hname
  have hlookup := (Assoc.lookup_eq_some_iff hentries.sorted.nodup).mpr he
  have hkind := List.all_eq_true.mp h f hf
  rw [hname, hlookup] at hkind
  exact hkind

/-! ### Numbers that can be held -/

mutual

/-- Every number in the value can be held: the integers in 128 bits, with a sign or without, and the others as
    doubles. -/
def Value.inRange : Value → Bool
  | .integer i => i.any fun (i : Int) => -Nat.pow 2 127 ≤ i && i < Nat.pow 2 128
  | .real x => x.isSome
  | .array _ items => Node.allInRange items
  | .table _ entries => Entry.allInRange entries
  | _ => true

def Node.allInRange : List Node → Bool
  | [] => true
  | ⟨v, _⟩ :: ns => v.inRange && Node.allInRange ns

def Entry.allInRange : List (String × Entry) → Bool
  | [] => true
  | (_, ⟨_, ⟨v, _⟩⟩) :: es => v.inRange && Entry.allInRange es

end

mutual

/-- What is passed over is no error when its numbers can be held. -/
theorem Value.pass_of_inRange (span : Span) : ∀ {v : Value}, v.inRange = true → v.pass span = .ok ()
  | .integer none, h => nomatch h
  | .integer (some i), h => by
    have hi : -Nat.pow 2 127 ≤ i ∧ i < Nat.pow 2 128 := by simpa [Value.inRange] using h
    have hfound : ∃ found, (Value.integer (some i)).found = .ok found := by
      unfold Value.found
      simp only [hi, and_self, if_true]
      split <;> exact ⟨_, rfl⟩
    obtain ⟨found, hfound⟩ := hfound
    simp only [Value.pass, hfound]
  | .real none, h => nomatch h
  | .real (some _), _ => rfl
  | .array _ _, h => Node.passAll_of_allInRange h
  | .table _ _, h => Entry.passAll_of_allInRange h
  | .string _, _ | .boolean _, _ | .datetime _, _ => rfl

theorem Node.passAll_of_allInRange : ∀ {items : List Node}, Node.allInRange items = true → Node.passAll items = .ok ()
  | [], _ => rfl
  | ⟨v, span⟩ :: ns, h => by
    obtain ⟨hv, hns⟩ := Bool.and_eq_true_iff.mp h
    rw [Node.passAll, Value.pass_of_inRange span hv]
    exact Node.passAll_of_allInRange hns

theorem Entry.passAll_of_allInRange :
    ∀ {entries : List (String × Entry)}, Entry.allInRange entries = true → Entry.passAll entries = .ok ()
  | [], _ => rfl
  | (_, ⟨_, ⟨v, span⟩⟩) :: es, h => by
    obtain ⟨hv, hes⟩ := Bool.and_eq_true_iff.mp h
    rw [Entry.passAll, Value.pass_of_inRange span hv]
    exact Entry.passAll_of_allInRange hes

end

theorem Entry.inRange_of_mem : ∀ {entries : Entries}, Entry.allInRange entries = true → ∀ e ∈ entries,
    e.2.node.value.inRange = true
  | (_, ⟨_, ⟨v, span⟩⟩) :: es, h, e, he => by
    obtain ⟨hv, hes⟩ := Bool.and_eq_true_iff.mp h
    rcases List.mem_cons.mp he with rfl | he
    · exact hv
    · exact Entry.inRange_of_mem hes e he

/-! ### Reading records -/

/-- Strings are read as their texts. -/
theorem Entry.string_eq {e : Entry} (h : e.node.value.isString = true) (expected : Expected) :
    e.node.string expected = .ok e.text := by
  unfold Entry.text Node.string
  cases hv : e.node.value with
  | string s => rfl
  | _ =>
    rw [hv] at h
    cases h

/-- A table of strings is read as its texts. -/
theorem Entry.strings_eq {e : Entry} (h : e.node.value.isTableOf Value.isString = true) :
    e.node.strings = .ok e.texts := by
  unfold Entry.texts Entry.inner Node.strings Node.entries?
  cases hv : e.node.value with
  | table origin entries =>
    rw [hv] at h
    refine (mapM_eq_ok_iff_map fun p hp b => ?_).mpr ⟨List.all_eq_true.mp h, rfl⟩
    have hstring := List.all_eq_true.mp h p hp
    rw [Entry.string_eq hstring]
    exact ⟨fun hb => ⟨hstring, (Except.ok.inj hb).symm⟩, fun hb => congrArg Except.ok hb.2.symm⟩
  | _ =>
    rw [hv] at h
    cases h

/-- A name that is a string is a choice when it is one of the names of the choices. -/
theorem Entry.choice_eq_ok_iff {α : Type} {table : List (String × α)} {e : Entry} (h : e.node.value.isString = true)
    {a : α} : e.node.choice table = .ok a ↔ table.lookup e.text = some a := by
  unfold Entry.text Node.choice Node.choice.select
  cases hv : e.node.value with
  | string s => cases hlookup : table.lookup s <;> simp [hlookup]
  | _ =>
    rw [hv] at h
    cases h

namespace Node
variable {α : Type} {put : α → String → Node → Option (Except Error α)}

/-- A record is read from a table when each entry is accepted, and is filled with what the table has for its keys. -/
theorem record_eq_ok_iff {name : String} {fields : List String} {defaults : α} {kinds : List (String × (Value → Bool))}
    {e : Entry} (hkinds : e.node.value.isTableWith kinds = true) (hordered : e.node.value.Ordered)
    (hrange : e.node.value.inRange = true) {fill : α → (String → Option Entry) → α} {accepts : String × Entry → Prop}
    (hnone : ∀ r, fill r (fun _ => none) = r)
    (hfill : ∀ r key e part, part key = none →
      fill (fill r (Assoc.only key e)) part = fill r fun n => if key = n then some e else part n)
    (htake : ∀ {key : String} {e : Entry}, (∀ f ∈ kinds, f.1 = key → f.2 e.node.value = true) →
      e.node.value.Ordered → e.node.value.inRange = true →
      ∀ r r', record.take put r key e.node = .ok r' ↔ accepts (key, e) ∧ r' = fill r (Assoc.only key e)) {r : α} :
    record name fields defaults put e.node = .ok r ↔
      (∀ g ∈ e.inner, accepts g) ∧ r = fill defaults fun n => e.inner.lookup n := by
  obtain ⟨_, ⟨v, span⟩⟩ := e
  cases v with
  | table origin entries =>
    have hentries := hordered.entries
    have hread : record name fields defaults put ⟨.table origin entries, span⟩ =
      entries.foldlM (fun r g => record.take put r g.1 g.2.node) defaults := rfl
    have hall : ∀ g ∈ entries, ∀ r r', record.take put r g.1 g.2.node = .ok r' ↔
        accepts g ∧ r' = fill r (Assoc.only g.1 g.2) := fun g hg =>
      htake (Value.kind_of_isTableWith hkinds hentries hg) (hentries.value g hg) (Entry.inRange_of_mem hrange g hg)
    rw [hread, foldlM_eq_ok_iff hall, Assoc.foldl_fill hnone hfill hentries.sorted.nodup]
    rfl
  | _ => cases hkinds

end Node

end Toml

end SchemaForge
