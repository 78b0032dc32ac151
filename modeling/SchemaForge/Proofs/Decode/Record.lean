import Mathlib.Data.List.Nodup
import SchemaForge.Decode.Json
import SchemaForge.Proofs.Except
import SchemaForge.Proofs.Json.Ordered

/-! What decoding accepts and what it makes of it. A record is described by its fields in their order, each with the
    kind of value that it takes. Whether a value is such a record can be said without the reader, and so can what
    the value gives for each field: the member of an object, or the item of an array at the field's place. -/

namespace SchemaForge

/-! ### Kinds of values -/

namespace Json

def isString : Json → Bool
  | string _ => true
  | _ => false

def isBoolean : Json → Bool
  | bool _ => true
  | _ => false

/-- An array of values of one kind. -/
def isArrayOf (kind : Json → Bool) : Json → Bool
  | array items => items.all kind
  | _ => false

/-- An object that has the first `required` of the fields, or an array that gives the fields in their order, that
    many at least. Every field that is there has a value of its kind. -/
def isRecord (fields : List (String × (Json → Bool))) (required : Nat) : Json → Bool
  | object members =>
    fields.all (fun f => (members.lookup f.1).all f.2) && (fields.take required).all fun f => (members.lookup f.1).isSome
  | array items =>
    required ≤ items.length && items.length ≤ fields.length && (fields.zip items).all fun p => p.1.2 p.2
  | _ => false

/-- The text of a string. -/
def text : Json → String
  | string s => s
  | _ => ""

/-- The truth of a boolean. -/
def truth : Json → Bool
  | bool b => b
  | _ => false

/-- The items of an array. -/
def items : Json → List Json
  | array items => items
  | _ => []

/-- The members of an object, or the items of an array under the names of fields. -/
def parts (names : List String) : Json → List (String × Json)
  | object members => members
  | array items => names.zip items
  | _ => []

/-- What a value gives for a field of a record with these names. -/
def part? (names : List String) (v : Json) (name : String) : Option Json := (v.parts names).lookup name

theorem Ordered.of_mem_parts {v : Json} (h : v.Ordered) {names : List String} {m : String × Json}
    (hm : m ∈ v.parts names) : m.2.Ordered := by
  cases v with
  | object members => exact h.member hm
  | array items => exact h.item (List.of_mem_zip hm).2
  | _ => exact absurd hm List.not_mem_nil

theorem Ordered.of_mem_items {v : Json} (h : v.Ordered) {w : Json} (hw : w ∈ v.items) : w.Ordered := by
  cases v with
  | array items => exact h.item hw
  | _ => exact absurd hw List.not_mem_nil

theorem map_fst_zip (names : List String) (items : List Json) :
    (names.zip items).map Prod.fst = names.take items.length := by
  induction names generalizing items with
  | nil => simp
  | cons name names ih => cases items <;> simp [ih]

theorem nodup_parts {names : List String} (hnames : names.Nodup) {v : Json} (h : v.Ordered) :
    ((v.parts names).map Prod.fst).Nodup := by
  cases v with
  | object members => exact h.nodup_keys
  | array items =>
    rw [parts, map_fst_zip]
    exact hnames.sublist (List.take_sublist _ _)
  | _ => exact List.nodup_nil

end Json

/-! ### Reading one value -/

namespace Decode
variable {α : Type}

theorem string_eq_ok_iff {v : Json} {s : String} : string v = .ok s ↔ v.isString = true ∧ s = v.text := by
  cases v with
  | string t => exact ⟨fun h => by cases h; exact ⟨rfl, rfl⟩, fun h => by rw [h.2]; rfl⟩
  | _ => exact ⟨fun h => (nomatch h), fun h => (nomatch h.1)⟩

theorem boolean_eq_ok_iff {v : Json} {b : Bool} : boolean v = .ok b ↔ v.isBoolean = true ∧ b = v.truth := by
  cases v with
  | bool c => exact ⟨fun h => by cases h; exact ⟨rfl, rfl⟩, fun h => by rw [h.2]; rfl⟩
  | _ => exact ⟨fun h => (nomatch h), fun h => (nomatch h.1)⟩

theorem list_eq_ok_iff {item : Json → Except DecodeError α} {kind : Json → Bool} {make : Json → α} {v : Json}
    (h : ∀ w ∈ v.items, ∀ a, item w = .ok a ↔ kind w = true ∧ a = make w) {l : List α} :
    list item v = .ok l ↔ v.isArrayOf kind = true ∧ l = v.items.map make := by
  cases v with
  | array items =>
    rw [Json.isArrayOf, List.all_eq_true]
    exact mapM_eq_ok_iff_map h
  | _ => exact ⟨fun h => (nomatch h), fun h => (nomatch h.1)⟩

/-- A list of written items is read as what each of them is read as. -/
theorem list_map {item : Json → Except DecodeError α} {write : α → Json} {restated : α → α}
    (h : ∀ a, item (write a) = .ok (restated a)) (l : List α) :
    list item (.array (l.map write)) = .ok (l.map restated) := by
  refine mapM_eq_ok_iff.mpr ?_
  rw [List.forall₂_map_left_iff, List.forall₂_map_right_iff]
  exact List.forall₂_same.mpr fun a _ => h a

theorem names_map_string (names : List String) : Decode.names (.array (names.map Json.string)) = .ok names := by
  have hread : ∀ s, string (.string s) = .ok (id s) := fun _ => rfl
  rw [Decode.names, list_map hread, List.map_id]

theorem map_string_eq_ok_iff {g : String → α} {v : Json} {a : α} :
    g <$> string v = .ok a ↔ v.isString = true ∧ a = g v.text :=
  map_eq_ok_iff fun _ => string_eq_ok_iff

theorem map_boolean_eq_ok_iff {g : Bool → α} {v : Json} {a : α} :
    g <$> boolean v = .ok a ↔ v.isBoolean = true ∧ a = g v.truth :=
  map_eq_ok_iff fun _ => boolean_eq_ok_iff

theorem map_list_eq_ok_iff {β : Type} {item : Json → Except DecodeError α} {kind : Json → Bool} {make : Json → α}
    {v : Json} (h : ∀ w ∈ v.items, ∀ a, item w = .ok a ↔ kind w = true ∧ a = make w) {g : List α → β} {b : β} :
    g <$> list item v = .ok b ↔ v.isArrayOf kind = true ∧ b = g (v.items.map make) :=
  map_eq_ok_iff fun _ => list_eq_ok_iff h

end Decode

/-! ### Reading records -/

section
variable {fields : List (String × (Json → Bool))} {parts : List (String × Json)} {items : List Json}

theorem forall_parts_iff (h : (parts.map Prod.fst).Nodup) :
    (∀ m ∈ parts, ∀ f ∈ fields, f.1 = m.1 → f.2 m.2 = true) ↔
      ∀ f ∈ fields, (parts.lookup f.1).all f.2 = true := by
  simp only [Option.all_eq_true]
  constructor
  · intro hall f hf w hw
    exact hall (f.1, w) ((Assoc.lookup_eq_some_iff h).mp hw) f hf rfl
  · rintro hall ⟨name, w⟩ hm f hf rfl
    exact hall f hf w ((Assoc.lookup_eq_some_iff h).mpr hm)

/-- Under distinct names an item is found by the name of its field. -/
theorem lookup_zip (h : (fields.map Prod.fst).Nodup) {f : String × (Json → Bool)} (hf : f ∈ fields) {w : Json} :
    ((fields.map Prod.fst).zip items).lookup f.1 = some w ↔ (f, w) ∈ fields.zip items := by
  have hkeys : (((fields.map Prod.fst).zip items).map Prod.fst).Nodup := by
    rw [Json.map_fst_zip]
    exact h.sublist (List.take_sublist _ _)
  rw [Assoc.lookup_eq_some_iff hkeys, List.zip_map_left, List.mem_map]
  constructor
  · rintro ⟨⟨f', w'⟩, hmem, he⟩
    obtain ⟨hname, rfl⟩ := Prod.mk.inj he
    rwa [List.inj_on_of_nodup_map h (List.of_mem_zip hmem).1 hf hname] at hmem
  · exact fun hmem => ⟨_, hmem, rfl⟩

/-- The kinds of an array's items can be said by the names of their fields. -/
theorem all_zip_iff (h : (fields.map Prod.fst).Nodup) : (fields.zip items).all (fun p => p.1.2 p.2) = true ↔
    ∀ f ∈ fields, (((fields.map Prod.fst).zip items).lookup f.1).all f.2 = true := by
  simp only [List.all_eq_true, Option.all_eq_true]
  constructor
  · intro hall f hf w hw
    exact hall _ ((lookup_zip h hf).mp hw)
  · rintro hall ⟨f, w⟩ hmem
    have hf := (List.of_mem_zip hmem).1
    exact hall f hf w ((lookup_zip h hf).mpr hmem)

/-- An array that is long enough gives every required field. -/
theorem isSome_lookup_zip {required : Nat} (h : required ≤ items.length) :
    ∀ f ∈ fields.take required, (((fields.map Prod.fst).zip items).lookup f.1).isSome = true := by
  intro f hf
  have hname : f.1 ∈ ((fields.map Prod.fst).zip items).map Prod.fst := by
    rw [Json.map_fst_zip, ← List.map_take]
    exact List.mem_map_of_mem (List.take_subset_take_left _ h hf)
  obtain ⟨m, hm, he⟩ := List.mem_map.mp hname
  exact List.lookup_isSome_iff.mpr ⟨m, hm, beq_iff_eq.mpr he.symm⟩

end

namespace Decode
variable {α δ : Type} {form : RecordForm} {fields : List (String × (Json → Bool))}

theorem checkCount_eq_ok_iff {count : Nat} :
    form.checkCount count = .ok () ↔ form.required ≤ count ∧ count ≤ form.fields.length := by
  unfold RecordForm.checkCount
  split
  · rename_i hshort
    exact ⟨fun h => (nomatch h), fun h => absurd h.1 (by omega)⟩
  · split
    · rename_i hlong
      exact ⟨fun h => (nomatch h), fun h => absurd h.2 (by omega)⟩
    · exact ⟨fun _ => by omega, fun _ => rfl⟩

/-- How the draft of a record is filled. `fill` fills it from parts. -/
structure Fills (form : RecordForm) (fields : List (String × (Json → Bool))) (empty : δ)
    (put : δ → String → Json → Except DecodeError δ) (finish : δ → Except DecodeError α)
    (fill : δ → (String → Option Json) → δ) (make : (String → Option Json) → α) : Prop where
  names : form.fields = fields.map Prod.fst
  nodup : form.fields.Nodup
  fill_none : ∀ d, fill d (fun _ => none) = d
  fill_fill : ∀ d name v part, part name = none →
    fill (fill d (Assoc.only name v)) part = fill d fun n => if name = n then some v else part n
  /-- A value is put into the draft when it is of its field's kind. -/
  put : ∀ d name v, v.Ordered → ∀ d', put d name v = .ok d' ↔
    (∀ f ∈ fields, f.1 = name → f.2 v = true) ∧ d' = fill d (Assoc.only name v)
  /-- A draft is a record when the required parts are there. -/
  finish : ∀ part a, finish (fill empty part) = .ok a ↔
    (∀ f ∈ fields.take form.required, (part f.1).isSome = true) ∧ a = make part

/-- A record is read from exactly the values that have its form, and is what their parts make. -/
theorem Fills.record_eq_ok_iff {empty : δ} {put : δ → String → Json → Except DecodeError δ}
    {finish : δ → Except DecodeError α} {fill : δ → (String → Option Json) → δ} {make : (String → Option Json) → α}
    (r : Fills form fields empty put finish fill make) {v : Json} (hv : v.Ordered) {a : α} :
    record form empty put finish v = .ok a ↔
      v.isRecord fields form.required = true ∧ a = make (v.part? form.fields) := by
  have hdistinct := Json.nodup_parts r.nodup hv
  have hfold : ∀ d, (v.parts form.fields).foldlM (fun d m => put d m.1 m.2) empty = .ok d ↔
      (∀ f ∈ fields, (v.part? form.fields f.1).all f.2 = true) ∧ d = fill empty (v.part? form.fields) := by
    intro d
    have hput : ∀ m ∈ v.parts form.fields, ∀ d d', put d m.1 m.2 = .ok d' ↔
        (∀ f ∈ fields, f.1 = m.1 → f.2 m.2 = true) ∧ d' = fill d (Assoc.only m.1 m.2) :=
      fun m hm d d' => r.put d m.1 m.2 (hv.of_mem_parts hm) d'
    rw [foldlM_eq_ok_iff hput, forall_parts_iff hdistinct, Assoc.foldl_fill r.fill_none r.fill_fill hdistinct]
    rfl
  cases v with
  | object members =>
    have hread : record form empty put finish (.object members) =
        members.foldlM (fun d m => put d m.1 m.2) empty >>= finish := rfl
    rw [hread, bind_eq_ok, Json.isRecord, Bool.and_eq_true, List.all_eq_true, List.all_eq_true]
    constructor
    · rintro ⟨d, hd, hfin⟩
      obtain ⟨hkinds, rfl⟩ := (hfold d).mp hd
      obtain ⟨hthere, rfl⟩ := (r.finish _ a).mp hfin
      exact ⟨⟨hkinds, hthere⟩, rfl⟩
    · rintro ⟨⟨hkinds, hthere⟩, rfl⟩
      exact ⟨_, (hfold _).mpr ⟨hkinds, rfl⟩, (r.finish _ _).mpr ⟨hthere, rfl⟩⟩
  | array items =>
    have hread : record form empty put finish (.array items) =
        (form.fields.zip items).foldlM (fun d m => put d m.1 m.2) empty >>= fun d =>
          form.checkCount items.length >>= fun _ => finish d := rfl
    have hlength : form.fields.length = fields.length := by rw [r.names, List.length_map]
    rw [hread, bind_eq_ok, Json.isRecord, Bool.and_eq_true, Bool.and_eq_true, decide_eq_true_eq, decide_eq_true_eq,
      all_zip_iff (r.names ▸ r.nodup), ← r.names, ← hlength]
    constructor
    · rintro ⟨d, hd, hrest⟩
      obtain ⟨hkinds, rfl⟩ := (hfold d).mp hd
      obtain ⟨_, hcount, hfin⟩ := bind_eq_ok.mp hrest
      exact ⟨⟨checkCount_eq_ok_iff.mp hcount, hkinds⟩, ((r.finish _ a).mp hfin).2⟩
    · rintro ⟨⟨hcount, hkinds⟩, rfl⟩
      refine ⟨_, (hfold _).mpr ⟨hkinds, rfl⟩, bind_eq_ok.mpr ⟨(), checkCount_eq_ok_iff.mpr hcount, ?_⟩⟩
      -- An array that is long enough gives every required field.
      exact (r.finish _ _).mpr ⟨fun f hf => r.names ▸ isSome_lookup_zip hcount.1 f hf, rfl⟩
  | _ => exact ⟨fun h => (nomatch h), fun h => (nomatch h.1)⟩

end Decode

end SchemaForge
