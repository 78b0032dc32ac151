import SchemaForge.Proofs.Document.Enlarged
import SchemaForge.Proofs.Except

/-! What reading a document does not depend on: the order of the members of any object, and members that a record
    does not declare. A value that differs from another in nothing else is read as the same document or refused
    with the same error, since the declared members are met in the same order. -/

namespace SchemaForge

namespace Role

/-- Two values give the same where one is read in this role. -/
def Same : Role → Json → Json → Prop
  | document, v, w => Document.ofJson v = Document.ofJson w
  | model, v, w => Model.ofJson v = Model.ofJson w
  | field, v, w => Field.ofJson v = Field.ofJson w
  | enum, v, w => Enum.ofJson v = Enum.ofJson w
  | enumValue, v, w => EnumValue.ofJson v = EnumValue.ofJson w
  | list r, v, w => v = w ∨ ∃ xs ys, v = .array xs ∧ w = .array ys ∧ List.Forall₂ r.Same xs ys
  | whole, v, w => v = w

theorem Same.refl (r : Role) (v : Json) : r.Same v v := by
  cases r with
  | list r => exact Or.inl rfl
  | _ => rfl

end Role

/-! ### Reading one record -/

namespace Decode
variable {α δ : Type} {form : RecordForm} {r : Role}

theorem list_congr {item : Json → Except DecodeError α} (h : ∀ v w, r.Same v w → item v = item w) {v w : Json}
    (hvw : (Role.list r).Same v w) : list item v = list item w := by
  rcases hvw with rfl | ⟨xs, ys, rfl, rfl, hitems⟩
  · rfl
  · exact mapM_congr (hitems.imp h)

/-- The record declares the key of the member. -/
def RecordForm.declares (form : RecordForm) (m : String × Json) : Bool := m.1 ∈ form.fields

theorem RecordForm.mem_keys_filter {key : String} {l : List (String × Json)} :
    key ∈ (l.filter form.declares).map Prod.fst ↔ key ∈ l.map Prod.fst ∧ key ∈ form.fields := by
  simp only [List.mem_map, List.mem_filter, declares, decide_eq_true_eq]
  constructor
  · rintro ⟨m, ⟨hm, hdeclared⟩, rfl⟩
    exact ⟨⟨m, hm, rfl⟩, hdeclared⟩
  · rintro ⟨⟨m, hm, rfl⟩, hdeclared⟩
    exact ⟨m, ⟨hm, hdeclared⟩, rfl⟩

/-- How a record is read: by its declared fields, each in the role of its value. -/
structure ReadsAs (r : Role) (form : RecordForm) (put : δ → String → Json → Except DecodeError δ) : Prop where
  fields : ∃ fields, r.fields? = some fields ∧ form.fields = fields.map Prod.fst
  nodup : form.fields.Nodup
  ignores : ∀ d key v, key ∉ form.fields → put d key v = .ok d
  congr : ∀ d key v w, (r.member key).Same v w → put d key v = put d key w

namespace ReadsAs
variable {put : δ → String → Json → Except DecodeError δ} {empty : δ} {finish : δ → Except DecodeError α}

theorem not_mem_fields (h : ReadsAs r form put) {key : String} (hkey : r.Admits key) : key ∉ form.fields := by
  obtain ⟨fields, hfields, hnames⟩ := h.fields
  obtain ⟨fields', hfields', hnot⟩ := hkey
  obtain rfl := Option.some.inj (hfields.symm.trans hfields')
  rwa [hnames]

/-- An object is read by those of its members that are declared. -/
theorem record_object (h : ReadsAs r form put) {l l' : List (String × Json)} (hl : Assoc.Sorted l)
    (hl' : Assoc.Sorted l') (hkept : ∀ key ∈ l.map Prod.fst, key ∈ l'.map Prod.fst)
    (hadded : ∀ key ∈ l'.map Prod.fst, key ∉ l.map Prod.fst → r.Admits key)
    (hmembers : ∀ key v w, (key, v) ∈ l → (key, w) ∈ l' → (r.member key).Same v w) :
    record form empty put finish (.object l) = record form empty put finish (.object l') := by
  have hidle : ∀ d (m : String × Json), form.declares m = false → put d m.1 m.2 = .ok d :=
    fun d m hm => h.ignores d m.1 m.2 (of_decide_eq_false hm)
  -- Both objects have the same declared members, and the order of the keys puts them in the same places.
  have hkeys : (l.filter form.declares).map Prod.fst = (l'.filter form.declares).map Prod.fst := by
    refine Assoc.Sorted.keys_eq (hl.filter _) (hl'.filter _) fun key => ?_
    rw [RecordForm.mem_keys_filter, RecordForm.mem_keys_filter]
    refine and_congr_left fun hdeclared => ⟨hkept key, fun hkey => ?_⟩
    by_contra hnot
    exact h.not_mem_fields (hadded key hkey hnot) hdeclared
  have hsame : ∀ key v w, (key, v) ∈ l.filter form.declares → (key, w) ∈ l'.filter form.declares →
      ∀ d, put d key v = put d key w :=
    fun key v w hv hw d =>
      h.congr d key v w (hmembers key v w (List.mem_of_mem_filter hv) (List.mem_of_mem_filter hw))
  have hfold : ∀ d, l.foldlM (fun d m => put d m.1 m.2) d = l'.foldlM (fun d m => put d m.1 m.2) d := by
    intro d
    rw [← foldlM_filter_of_idle hidle l, ← foldlM_filter_of_idle hidle l']
    refine foldlM_congr ((Assoc.forall₂_of_keys_eq hkeys hsame).imp ?_) d
    rintro ⟨key, v⟩ ⟨key', w⟩ ⟨rfl, hput⟩
    exact hput
  have hread : ∀ l, record form empty put finish (.object l) = l.foldlM (fun d m => put d m.1 m.2) empty >>= finish :=
    fun _ => rfl
  rw [hread, hread, hfold]

theorem item_eq (h : ReadsAs r form put) {i : Nat} {name : String} (hname : form.fields[i]? = some name) :
    r.item i = r.member name := by
  obtain ⟨fields, hfields, hnames⟩ := h.fields
  have hnodup : (fields.map Prod.fst).Nodup := hnames ▸ h.nodup
  rw [hnames, List.getElem?_map, Option.map_eq_some_iff] at hname
  obtain ⟨⟨key, role⟩, hfield, rfl⟩ := hname
  have hlookup := (Assoc.lookup_eq_some_iff hnodup).mpr (List.mem_of_getElem? hfield)
  have hitem : r.item i = (((r.fields?.getD [])[i]?).map Prod.snd).getD .whole := by
    cases r with
    | list r => cases hfields
    | _ => rfl
  rw [hitem, Role.member, hfields, Option.getD_some, hfield, hlookup]
  rfl

/-- An array is read item by item, each for the field at its place. -/
theorem record_array (h : ReadsAs r form put) {xs ys : List Json} (hlength : xs.length = ys.length)
    (hitems : ∀ i x y, xs[i]? = some x → ys[i]? = some y → (r.item i).Same x y) :
    record form empty put finish (.array xs) = record form empty put finish (.array ys) := by
  have hfold : ∀ d, (form.fields.zip xs).foldlM (fun d m => put d m.1 m.2) d =
      (form.fields.zip ys).foldlM (fun d m => put d m.1 m.2) d := by
    refine foldlM_congr (List.forall₂_iff_get.mpr ⟨by simp only [List.length_zip, hlength], fun i hi hi' d => ?_⟩)
    simp only [List.length_zip, Nat.lt_min] at hi hi'
    simp only [List.get_eq_getElem, List.getElem_zip]
    refine h.congr d _ _ _ ?_
    rw [← h.item_eq (List.getElem?_eq_getElem hi.1)]
    exact hitems i _ _ (List.getElem?_eq_getElem hi.2) (List.getElem?_eq_getElem hi'.2)
  have hread : ∀ xs, record form empty put finish (.array xs) =
      (form.fields.zip xs).foldlM (fun d m => put d m.1 m.2) empty >>= fun d =>
        form.checkCount xs.length >>= fun _ => finish d := fun _ => rfl
  rw [hread, hread, hfold, hlength]

end ReadsAs

end Decode

/-! ### The records of a document -/

namespace Field

theorem readsAs : Decode.ReadsAs .field form Draft.put where
  fields := ⟨_, rfl, rfl⟩
  nodup := by decide
  ignores d key v h := by
    unfold Draft.put
    split <;> simp_all [form]
  congr d key v w h := by
    unfold Draft.put
    split
    case h_8 => rfl
    all_goals
      obtain rfl : v = w := h
      rfl

end Field

namespace Model

theorem readsAs : Decode.ReadsAs .model form Draft.put where
  fields := ⟨_, rfl, rfl⟩
  nodup := by decide
  ignores d key v h := by
    unfold Draft.put
    split <;> simp_all [form]
  congr d key v w h := by
    unfold Draft.put
    split
    · obtain rfl : v = w := h
      rfl
    · have hfields : Decode.list Field.ofJson v = Decode.list Field.ofJson w :=
        Decode.list_congr (r := .field) (fun _ _ hvw => hvw) h
      rw [hfields]
    · rfl

end Model

namespace EnumValue

theorem readsAs : Decode.ReadsAs .enumValue form put where
  fields := ⟨_, rfl, rfl⟩
  nodup := by decide
  ignores d key v h := by
    unfold put
    split <;> simp_all [form]
  congr d key v w h := by
    unfold put
    split
    · obtain rfl : v = w := h
      rfl
    · rfl

end EnumValue

namespace Enum

theorem readsAs : Decode.ReadsAs .enum form Draft.put where
  fields := ⟨_, rfl, rfl⟩
  nodup := by decide
  ignores d key v h := by
    unfold Draft.put
    split <;> simp_all [form]
  congr d key v w h := by
    unfold Draft.put
    split
    · obtain rfl : v = w := h
      rfl
    · have hvalues : Decode.list EnumValue.ofJson v = Decode.list EnumValue.ofJson w :=
        Decode.list_congr (r := .enumValue) (fun _ _ hvw => hvw) h
      rw [hvalues]
    · rfl

end Enum

namespace Document

theorem readsAs : Decode.ReadsAs .document form Draft.put where
  fields := ⟨_, rfl, rfl⟩
  nodup := by decide
  ignores d key v h := by
    unfold Draft.put
    split <;> simp_all [form]
  congr d key v w h := by
    unfold Draft.put
    split
    · have hmodels : Decode.list Model.ofJson v = Decode.list Model.ofJson w :=
        Decode.list_congr (r := .model) (fun _ _ hvw => hvw) h
      rw [hmodels]
    · have henums : Decode.list Enum.ofJson v = Decode.list Enum.ofJson w :=
        Decode.list_congr (r := .enum) (fun _ _ hvw => hvw) h
      rw [henums]
    · rfl

end Document

/-! ### Values that are read alike -/

namespace Role
variable {r : Role}

theorem same_array {xs ys : List Json} (hlength : xs.length = ys.length)
    (hitems : ∀ i x y, xs[i]? = some x → ys[i]? = some y → (r.item i).Same x y) : r.Same (.array xs) (.array ys) := by
  have halike : ∀ R : Json → Json → Prop, (∀ i x y, xs[i]? = some x → ys[i]? = some y → R x y) → List.Forall₂ R xs ys :=
    fun R h => List.forall₂_iff_get.mpr ⟨hlength, fun i hi hi' =>
      h i _ _ (List.getElem?_eq_getElem hi) (List.getElem?_eq_getElem hi')⟩
  cases r with
  | document => exact Document.readsAs.record_array hlength hitems
  | model => exact Model.readsAs.record_array hlength hitems
  | field => exact Field.readsAs.record_array hlength hitems
  | enum => exact Enum.readsAs.record_array hlength hitems
  | enumValue => exact EnumValue.readsAs.record_array hlength hitems
  | list r => exact Or.inr ⟨xs, ys, rfl, rfl, halike r.Same hitems⟩
  | whole => exact congrArg Json.array (List.forall₂_eq_eq_eq ▸ halike (· = ·) hitems)

theorem same_object {l l' : List (String × Json)} (hl : Assoc.Sorted l) (hl' : Assoc.Sorted l')
    (hkept : ∀ key ∈ l.map Prod.fst, key ∈ l'.map Prod.fst)
    (hadded : ∀ key ∈ l'.map Prod.fst, key ∉ l.map Prod.fst → r.Admits key)
    (hmembers : ∀ key v w, (key, v) ∈ l → (key, w) ∈ l' → (r.member key).Same v w) :
    r.Same (.object l) (.object l') := by
  -- What is no record keeps its keys, and each of them its value.
  have hequal : r.fields? = none → l = l' := by
    intro hnone
    have hkeys : l.map Prod.fst = l'.map Prod.fst := by
      refine hl.keys_eq hl' fun key => ⟨hkept key, fun hkey => ?_⟩
      by_contra hnot
      obtain ⟨fields, hfields, -⟩ := hadded key hkey hnot
      rw [hnone] at hfields
      cases hfields
    have hsame : ∀ key v w, (key, v) ∈ l → (key, w) ∈ l' → v = w := by
      intro key v w hv hw
      have h := hmembers key v w hv hw
      rw [Role.member, hnone] at h
      exact h
    have hpairs := (Assoc.forall₂_of_keys_eq hkeys hsame).imp fun p q h => Prod.ext h.1 h.2
    rwa [List.forall₂_eq_eq_eq] at hpairs
  cases r with
  | document => exact Document.readsAs.record_object hl hl' hkept hadded hmembers
  | model => exact Model.readsAs.record_object hl hl' hkept hadded hmembers
  | field => exact Field.readsAs.record_object hl hl' hkept hadded hmembers
  | enum => exact Enum.readsAs.record_object hl hl' hkept hadded hmembers
  | enumValue => exact EnumValue.readsAs.record_object hl hl' hkept hadded hmembers
  | list r => exact Or.inl (congrArg Json.object (hequal rfl))
  | whole => exact congrArg Json.object (hequal rfl)

end Role

namespace Json

/-- Enlarging a value does not change what it is read as. -/
theorem Enlarged.same {r : Role} {x y : Json} (h : Enlarged r x y) : r.Same x.canonical y.canonical := by
  induction h with
  | refl r v => exact .refl r v.canonical
  | array length items ih =>
    rw [canonical, canonical, canonicalItems_eq_map, canonicalItems_eq_map]
    refine Role.same_array (by simpa using length) fun i v w hv hw => ?_
    rw [List.getElem?_map, Option.map_eq_some_iff] at hv hw
    obtain ⟨x, hx, rfl⟩ := hv
    obtain ⟨y, hy, rfl⟩ := hw
    exact ih i x y hx hy
  | @object r ms ns kept members added ih =>
    rw [canonical, canonical]
    refine Role.same_object (sorted_canonicalMembers ms) (sorted_canonicalMembers ns) ?_ ?_ ?_
    · intro key hms
      exact mem_keys_canonicalMembers.mpr (kept key (mem_keys_canonicalMembers.mp hms))
    · intro key hns hms
      rw [mem_keys_canonicalMembers, Option.not_isSome_iff_eq_none] at hms
      exact added key hms (mem_keys_canonicalMembers.mp hns)
    · intro key v w hv hw
      obtain ⟨x, hx, rfl⟩ := mem_canonicalMembers.mp hv
      obtain ⟨y, hy, rfl⟩ := mem_canonicalMembers.mp hw
      exact ih key x y hx hy

end Json

namespace Document

/-- A text is read the same, as a document or as an error, when it writes an enlarged value, by itself or under
    `datamodel` beside anything else. -/
theorem parse_eq_of_enlarged {x y z : Json} (h : Json.Enlarged .document x y)
    (hx : x.last? "datamodel" = none) (hy : y.last? "datamodel" = none)
    (hz : z = y ∨ z.last? "datamodel" = some y) {text text' : String} (ht : Json.parse text = .ok x)
    (ht' : Json.parse text' = .ok z) : parse text' = parse text := by
  have hbare : ∀ v : Json, v.last? "datamodel" = none → unwrap v.canonical = v.canonical := by
    intro v hv
    rw [unwrap, Json.member?_canonical, hv]
    rfl
  have hwrapped : unwrap z.canonical = y.canonical := by
    rcases hz with rfl | hz
    · exact hbare z hy
    · rw [unwrap, Json.member?_canonical, hz]
      rfl
  have hsame : ofJson x.canonical = ofJson y.canonical := h.same
  simp only [parse, ht, ht', ofValue, hwrapped, hbare x hx, hsame]

open Json in
theorem parse_eq_of_enlarged_fields :
    let x : Json := .object [("models", .array [.object [("fields", .null)]])]
    let y : Json := .object [("models", .array [.object [("fields", .null), ("x", .null)]])]
    Enlarged .document x y ∧
      parse "\x7b\"to\":null,\"datamodel\":\x7b\"models\":[\x7b\"fields\":null,\"x\":null\x7d]\x7d\x7d" =
        .error (.invalid (.wrongType .null .sequence)) := by
  intro x y
  have hmodel : Enlarged .model (.object [("fields", .null)]) (.object [("fields", .null), ("x", .null)]) :=
    (Enlarged.add ⟨_, rfl, by decide⟩ .null _).trans (.of_perm (List.Perm.swap _ _ []) (by decide))
  have hmodels : Enlarged (Role.document.member "models") (.array [.object [("fields", .null)]])
      (.array [.object [("fields", .null), ("x", .null)]]) := by
    refine .array rfl fun i v w hv hw => ?_
    cases i with
    | zero =>
      cases hv
      cases hw
      exact hmodel
    | succ i => cases hv
  have h : Enlarged .document x y := .of_member hmodels []
  have ht : Json.parse "\x7b\"models\":[\x7b\"fields\":null\x7d]\x7d" = .ok x := by
    simp [Json.parse, Reading.run, Reading.start, Reading.step, Reading.takeValue, Reading.takeKey,
      Reading.takeSeparator, Reading.opened, Reading.maxDepth, Reading.complete, Reading.close, Reading.finish, isSpace,
      scanToken, scanToken.word, scanString, scanWord, scanWord.go, x]
  refine ⟨h,
    (parse_eq_of_enlarged (z := .object [("to", .null), ("datamodel", y)]) h rfl rfl (.inr rfl) ht ?_).trans ?_⟩
  · simp [Json.parse, Reading.run, Reading.start, Reading.step, Reading.takeValue, Reading.takeKey,
      Reading.takeSeparator, Reading.opened, Reading.maxDepth, Reading.complete, Reading.close, Reading.finish, isSpace,
      scanToken, scanToken.word, scanString, scanWord, scanWord.go, y]
  · rw [parse, ht]
    rfl

end Document

end SchemaForge
