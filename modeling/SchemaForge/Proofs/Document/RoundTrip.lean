import SchemaForge.Proofs.Document.Grammar

/-! Documents that are written and read again. Reading what was written always succeeds. A default alone may come
    back as another one: a literal that is null is no default any more, and one that looks like a function has
    become it. What was read once is not changed again. -/

namespace SchemaForge

namespace FieldDefault

/-- The default is what its value says: it is a function, or a literal that is neither null nor of the form of a
    function. -/
def isStated : FieldDefault → Bool
  | function _ _ => true
  | literal .null => false
  | literal v => v.function?.isNone

theorem statedDefault_toJson_iff (x : FieldDefault) : Field.statedDefault x.toJson = some x ↔ x.isStated = true := by
  cases x with
  | function name args => exact iff_of_true rfl rfl
  | literal v =>
    cases v with
    | object members =>
      simp only [toJson, Field.statedDefault, isStated]
      cases Json.function? (.object members) <;> simp
    | null => simp [toJson, Field.statedDefault, isStated]
    | _ => exact iff_of_true rfl rfl

theorem isStated_of_statedDefault {v : Json} {x : FieldDefault} (h : Field.statedDefault v = some x) :
    x.isStated = true := by
  cases v with
  | object members =>
    simp only [Field.statedDefault] at h
    cases hf : Json.function? (.object members) with
    | none =>
      rw [hf] at h
      cases h
      exact Option.isNone_iff_eq_none.mpr hf
    | some f =>
      rw [hf] at h
      cases h
      rfl
  | null => cases h
  | _ => cases h; rfl

end FieldDefault

/-! ### Reading what was written -/

namespace Field

/-- The field with the default that its own value says. -/
def restated (f : Field) : Field := { f with default := f.default.bind fun x => statedDefault x.toJson }

theorem ofJson_toJson (f : Field) : ofJson f.toJson = .ok f.restated := by
  obtain ⟨name, type, isList, isRequired, hasDefaultValue, isId, default⟩ := f
  cases default with
  | none => rfl
  | some x =>
    have hread : ofJson (toJson ⟨name, type, isList, isRequired, hasDefaultValue, isId, some x⟩) =
        .ok ⟨name, type, isList, isRequired, hasDefaultValue, isId, defaultOfJson x.toJson⟩ := rfl
    rw [hread, defaultOfJson_eq]
    rfl

/-- The default of the field, if it has one, is what its value says. -/
def isStated (f : Field) : Bool := f.default.all FieldDefault.isStated

theorem restated_eq_iff (f : Field) : f.restated = f ↔ f.isStated = true := by
  obtain ⟨name, type, isList, isRequired, hasDefaultValue, isId, default⟩ := f
  cases default with
  | none => exact iff_of_true rfl rfl
  | some x => simp [restated, isStated, FieldDefault.statedDefault_toJson_iff]

end Field

/-- A list stays as it is under a function that every item stays under. -/
theorem map_eq_self_iff {α : Type} {g : α → α} {l : List α} : l.map g = l ↔ ∀ a ∈ l, g a = a := by
  conv => lhs; rhs; rw [← List.map_id l]
  exact List.map_inj_left

namespace Model

def restated (m : Model) : Model := { m with fields := m.fields.map Field.restated }

theorem ofJson_toJson (m : Model) : ofJson m.toJson = .ok m.restated := by
  simp [ofJson, toJson, Decode.record, Draft.put, Decode.list_map Field.ofJson_toJson, Decode.string, Draft.finish,
    Decode.required, bind, Except.bind, pure, Except.pure, restated]

/-- Every default of the model is what its value says. -/
def isStated (m : Model) : Bool := m.fields.all Field.isStated

theorem restated_eq_iff (m : Model) : m.restated = m ↔ m.isStated = true := by
  rw [isStated, List.all_eq_true]
  simp only [← Field.restated_eq_iff, ← map_eq_self_iff]
  exact ⟨fun h => congrArg fields h, fun h => by rw [restated, h]⟩

end Model

namespace EnumValue

theorem ofJson_toJson (e : EnumValue) : ofJson e.toJson = .ok e := rfl

end EnumValue

namespace Enum

theorem ofJson_toJson (e : Enum) : ofJson e.toJson = .ok e := by
  simp [ofJson, toJson, Decode.record, Draft.put, Decode.list_map EnumValue.ofJson_toJson, Decode.string, Draft.finish,
    Decode.required, bind, Except.bind, pure, Except.pure]

end Enum

namespace Document

def restated (d : Document) : Document := { d with models := d.models.map Model.restated }

theorem ofJson_toJson (d : Document) : ofJson d.toJson = .ok d.restated := by
  simp [ofJson, toJson, Decode.record, Draft.put, Decode.list_map Model.ofJson_toJson,
    Decode.list_map Enum.ofJson_toJson, Draft.finish, Decode.required, bind, Except.bind, pure, Except.pure, restated]

/-- Every default of the document is what its value says: no literal is null or has the form of a function. -/
def isStated (d : Document) : Bool := d.models.all Model.isStated

theorem restated_eq_iff (d : Document) : d.restated = d ↔ d.isStated = true := by
  rw [isStated, List.all_eq_true]
  simp only [← Model.restated_eq_iff, ← map_eq_self_iff]
  exact ⟨fun h => congrArg models h, fun h => by rw [restated, h]⟩

end Document

/-! ### What is read -/

namespace Decode
variable {α δ : Type}

/-- What holds of the empty draft and is kept by every field that is put into it holds of the whole draft, and so
    of the record. -/
theorem record_induction {form : RecordForm} {empty : δ} {put : δ → String → Json → Except DecodeError δ}
    {finish : δ → Except DecodeError α} (kept : δ → Prop) (holds : α → Prop) (hempty : kept empty)
    (hput : ∀ d name v d', kept d → put d name v = .ok d' → kept d')
    (hfinish : ∀ d a, kept d → finish d = .ok a → holds a) {v : Json} {a : α}
    (h : record form empty put finish v = .ok a) : holds a := by
  have hfold : ∀ (parts : List (String × Json)) (d d' : δ), kept d →
      parts.foldlM (fun d m => put d m.1 m.2) d = .ok d' → kept d' := by
    intro parts
    induction parts with
    | nil => exact fun d d' hd h => by cases h; exact hd
    | cons m parts ih =>
      intro d d' hd h
      rw [List.foldlM_cons] at h
      obtain ⟨d₁, hm, hrest⟩ := bind_eq_ok.mp h
      exact ih d₁ d' (hput d m.1 m.2 d₁ hd hm) hrest
  cases v with
  | object members =>
    obtain ⟨d, hd, hfin⟩ := bind_eq_ok.mp h
    exact hfinish d a (hfold _ _ d hempty hd) hfin
  | array items =>
    obtain ⟨d, hd, hrest⟩ := bind_eq_ok.mp h
    obtain ⟨_, _, hfin⟩ := bind_eq_ok.mp hrest
    exact hfinish d a (hfold _ _ d hempty hd) hfin
  | _ => cases h

theorem list_induction {item : Json → Except DecodeError α} {holds : α → Prop}
    (hitem : ∀ v a, item v = .ok a → holds a) {v : Json} {l : List α} (h : list item v = .ok l) : ∀ a ∈ l, holds a := by
  cases v with
  | array items =>
    induction mapM_eq_ok_iff.mp h with
    | nil => exact fun _ ha => absurd ha List.not_mem_nil
    | cons hread hrest ih => exact List.forall_mem_cons.mpr ⟨hitem _ _ hread, ih (mapM_eq_ok_iff.mpr hrest)⟩
  | _ => cases h

end Decode

namespace Field

theorem isStated_of_ofJson {v : Json} {f : Field} (h : ofJson v = .ok f) : f.isStated = true := by
  refine Decode.record_induction (fun d : Draft => d.default.all FieldDefault.isStated = true)
    (fun f => f.isStated = true) rfl ?_ ?_ h
  · intro d name v d' hd hput
    unfold Draft.put at hput
    split at hput
    case h_7 =>
      cases hput
      exact (Option.all_eq_true _ _).mpr fun x hx => FieldDefault.isStated_of_statedDefault (defaultOfJson_eq v ▸ hx)
    case h_8 => cases hput; exact hd
    all_goals
      obtain ⟨_, -, hput⟩ := bind_eq_ok.mp hput
      cases hput
      exact hd
  · intro d f hd hfinish
    obtain ⟨_, -, hrest⟩ := bind_eq_ok.mp hfinish
    obtain ⟨_, -, hf⟩ := bind_eq_ok.mp hrest
    cases hf
    exact hd

end Field

namespace Model

theorem isStated_of_ofJson {v : Json} {m : Model} (h : ofJson v = .ok m) : m.isStated = true := by
  refine Decode.record_induction (fun d : Draft => ∀ f ∈ d.fields, f.isStated = true)
    (fun m => m.isStated = true) (fun _ hf => absurd hf List.not_mem_nil) ?_ ?_ h
  · intro d name v d' hd hput
    unfold Draft.put at hput
    split at hput
    · obtain ⟨_, -, hput⟩ := bind_eq_ok.mp hput
      cases hput
      exact hd
    · obtain ⟨fields, hfields, hput⟩ := bind_eq_ok.mp hput
      cases hput
      exact Decode.list_induction (fun _ _ => Field.isStated_of_ofJson) hfields
    · cases hput
      exact hd
  · intro d m hd hfinish
    obtain ⟨_, -, hm⟩ := bind_eq_ok.mp hfinish
    cases hm
    exact List.all_eq_true.mpr hd

end Model

namespace Document

theorem isStated_of_ofJson {v : Json} {d : Document} (h : ofJson v = .ok d) : d.isStated = true := by
  refine Decode.record_induction
    (fun d : Draft => ∀ models, d.models = some models → ∀ m ∈ models, m.isStated = true)
    (fun d => d.isStated = true) (by rintro _ ⟨⟩) ?_ ?_ h
  · intro d name v d' hd hput
    unfold Draft.put at hput
    split at hput
    · obtain ⟨models, hmodels, hput⟩ := bind_eq_ok.mp hput
      cases hput
      rintro _ ⟨⟩
      exact Decode.list_induction (fun _ _ => Model.isStated_of_ofJson) hmodels
    · obtain ⟨_, -, hput⟩ := bind_eq_ok.mp hput
      cases hput
      exact hd
    · cases hput
      exact hd
  · intro d e hd hfinish
    obtain ⟨models, hmodels, he⟩ := bind_eq_ok.mp hfinish
    cases he
    cases hm : d.models with
    | none => rw [hm] at hmodels; cases hmodels
    | some ms =>
      rw [hm] at hmodels
      cases hmodels
      exact List.all_eq_true.mpr (hd models hm)

/-- Reading what was written always succeeds, and yields the same document exactly when no default of it is a literal
    that is null or has the form of a function. Every document that was read is such a document. -/
theorem ofJson_toJson_eq_ok_iff (d : Document) : (∃ d', ofJson d.toJson = .ok d') ∧
    (ofJson d.toJson = .ok d ↔ d.isStated = true) ∧
    ∀ v, ofJson v = .ok d → d.isStated = true ∧ ofJson d.toJson = .ok d := by
  have hsame : ofJson d.toJson = .ok d ↔ d.isStated = true := by
    rw [ofJson_toJson, Except.ok.injEq, restated_eq_iff]
  refine ⟨⟨_, ofJson_toJson d⟩, hsame, fun v h => ?_⟩
  have hstated := isStated_of_ofJson h
  exact ⟨hstated, hsame.mpr hstated⟩

/-- A function that is read from an array form comes back. A literal that is null does not. -/
theorem ofJson_toJson_eq_ok_iff_cuid :
    let v : Json := .array [.array [.array [.string "A", .array [.array [.string "id", .string "Int", .bool false,
      .bool true, .bool true, .bool true, .object [("args", .array [.null]), ("map", .null), ("name", .string "cuid")]]]]]]
    let d : Document := ⟨[⟨"A", [⟨"id", "Int", false, true, true, true, some (.function "cuid" [.null])⟩]⟩], []⟩
    let d' : Document := ⟨[⟨"A", [.withDefault (.new "id" "Int") (.literal .null)]⟩], []⟩
    ofJson v = .ok d ∧ (d.isStated = true ∧ ofJson d.toJson = .ok d) ∧ ¬ ofJson d'.toJson = .ok d' := by
  intro v d d'
  have hread : ofJson v = .ok d := rfl
  exact ⟨hread, (ofJson_toJson_eq_ok_iff d).2.2 v hread, fun h => nomatch (ofJson_toJson_eq_ok_iff d').2.1.mp h⟩

end Document

end SchemaForge
