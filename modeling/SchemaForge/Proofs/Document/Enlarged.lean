import SchemaForge.Document.Json
import SchemaForge.Proofs.Json.Members

/-! Values that differ in the order of members and in members that no record declares. What a value is read as says
    which members it may get: a record any that it does not declare, and everything else none. Such
    changes can be made one after the other and at any depth. -/

namespace SchemaForge

/-! ### What values are read as -/

/-- What a value is read as: one of the records of a document, a list of such values, or itself. -/
inductive Role where
  | document | model | field | enum | enumValue
  | list (item : Role)
  | whole

namespace Role

/-- The fields that a record declares, in their order, with what their values are read as. -/
def fields? : Role → Option (List (String × Role))
  | document => some [("models", list model), ("enums", list enum)]
  | model => some [("name", whole), ("fields", list field)]
  | field => some (Field.form.fields.map fun name => (name, whole))
  | enum => some [("name", whole), ("values", list enumValue)]
  | enumValue => some [("name", whole)]
  | list _ => none
  | whole => none

/-- What the value of a member is read as. -/
def member (r : Role) (key : String) : Role := ((r.fields?.getD []).lookup key).getD whole

/-- What an item of an array is read as. A record may be an array of its fields' values. -/
def item : Role → Nat → Role
  | list r, _ => r
  | r, i => (((r.fields?.getD [])[i]?).map Prod.snd).getD whole

/-- An object may get a member with this key: it is read as a record that does not declare it. -/
def Admits (r : Role) (key : String) : Prop := ∃ fields, r.fields? = some fields ∧ key ∉ fields.map Prod.fst

end Role

/-! ### Enlarged values -/

/-- The second value is the first one with the members of its objects in any order, and with further members in its
    records that they do not declare. -/
inductive Json.Enlarged : Role → Json → Json → Prop
  | refl (r : Role) (v : Json) : Json.Enlarged r v v
  | array {r : Role} {xs ys : List Json} (length : xs.length = ys.length)
    (items : ∀ i x y, xs[i]? = some x → ys[i]? = some y → Json.Enlarged (r.item i) x y) :
    Json.Enlarged r (.array xs) (.array ys)
  | object {r : Role} {ms ns : List (String × Json)}
    (kept : ∀ key, ((Json.object ms).last? key).isSome = true → ((Json.object ns).last? key).isSome = true)
    (members : ∀ key x y, (Json.object ms).last? key = some x → (Json.object ns).last? key = some y →
      Json.Enlarged (r.member key) x y)
    (added : ∀ key, (Json.object ms).last? key = none → ((Json.object ns).last? key).isSome = true →
      r.Admits key) :
    Json.Enlarged r (.object ms) (.object ns)

namespace Json.Enlarged
variable {r : Role} {ms ns : List (String × Json)}

/-- The relation on two objects, key by key. -/
theorem of_object (h : Enlarged r (.object ms) (.object ns)) :
    (∀ key, ((Json.object ms).last? key).isSome = true → ((Json.object ns).last? key).isSome = true) ∧
      (∀ key x y, (Json.object ms).last? key = some x → (Json.object ns).last? key = some y →
        Enlarged (r.member key) x y) ∧
      ∀ key, (Json.object ms).last? key = none → ((Json.object ns).last? key).isSome = true → r.Admits key := by
  cases h with
  | refl =>
    refine ⟨fun _ hkey => hkey, fun key x y hx hy => ?_, fun key hnone hkey => ?_⟩
    · rw [hx] at hy
      rw [Option.some.inj hy]
      exact .refl _ y
    · rw [hnone] at hkey
      cases hkey
  | object kept members added => exact ⟨kept, members, added⟩

theorem trans {x y z : Json} (h : Enlarged r x y) (h' : Enlarged r y z) : Enlarged r x z := by
  induction h generalizing z with
  | refl r v => exact h'
  | @array r xs ys length items ih =>
    cases h' with
    | refl => exact .array length items
    | @array _ _ zs length' items' =>
      refine .array (length.trans length') fun i x z hx hz => ?_
      have hi : i < ys.length := length' ▸ (List.getElem?_eq_some_iff.mp hz).1
      have hy : ys[i]? = some ys[i] := List.getElem?_eq_getElem hi
      exact ih i x ys[i] hx hy (items' i ys[i] z hy hz)
  | @object r ms ns kept members added ih =>
    cases h' with
    | refl => exact .object kept members added
    | @object _ _ ps kept' members' added' =>
      refine .object (fun key hkey => kept' key (kept key hkey)) (fun key x z hx hz => ?_) (fun key hnone hkey => ?_)
      · obtain ⟨y, hy⟩ := Option.isSome_iff_exists.mp (kept key (Option.isSome_of_eq_some hx))
        exact ih key x y hx hy (members' key y z hy hz)
      · cases hns : (Json.object ns).last? key with
        | none => exact added' key hns hkey
        | some y => exact added key hnone (Option.isSome_of_eq_some hns)

/-- The members of an object may stand in any order. -/
theorem of_perm (h : ms.Perm ns) (hnodup : (ms.map Prod.fst).Nodup) : Enlarged r (.object ms) (.object ns) := by
  refine .object (fun key hkey => ?_) (fun key x y hx hy => ?_) (fun key hnone hkey => ?_)
  · rwa [← last?_perm h hnodup]
  · rw [last?_perm h hnodup, hy] at hx
    rw [Option.some.inj hx]
    exact .refl _ x
  · rw [← last?_perm h hnodup, hnone] at hkey
    cases hkey

/-- A record may have a member that it does not declare. -/
theorem add {key : String} (hkey : r.Admits key) (v : Json) (ms : List (String × Json)) :
    Enlarged r (.object ms) (.object ((key, v) :: ms)) := by
  refine .object (fun k hk => ?_) (fun k x y hx hy => ?_) (fun k hnone hk => ?_)
  · rw [last?_cons, Option.isSome_or, hk, Bool.true_or]
  · rw [last?_cons, hx] at hy
    rw [Option.some.inj hy]
    exact .refl _ y
  · rw [last?_cons, hnone, Option.none_or] at hk
    split at hk
    · rename_i he
      exact he ▸ hkey
    · cases hk

/-- A value inside an object may be enlarged. -/
theorem of_member {key : String} {x y : Json} (h : Enlarged (r.member key) x y) (ms : List (String × Json)) :
    Enlarged r (.object ((key, x) :: ms)) (.object ((key, y) :: ms)) := by
  have hthere : ∀ k, ((Json.object ((key, x) :: ms)).last? k).isSome =
      ((Json.object ((key, y) :: ms)).last? k).isSome := by
    intro k
    rw [last?_cons, last?_cons, Option.isSome_or, Option.isSome_or]
    split <;> rfl
  refine .object (fun k hk => hthere k ▸ hk) (fun k v w hv hw => ?_) (fun k hnone hk => ?_)
  · rw [last?_cons] at hv hw
    cases hms : (Json.object ms).last? k with
    | some u =>
      rw [hms, Option.some_or, Option.some.injEq] at hv hw
      rw [← hv, ← hw]
      exact .refl _ u
    | none =>
      rw [hms, Option.none_or, Option.ite_none_right_eq_some] at hv hw
      obtain ⟨rfl, hv⟩ := hv
      rw [← Option.some.inj hv, ← Option.some.inj hw.2]
      exact h
  · rw [← hthere, hnone] at hk
    cases hk

end Json.Enlarged

end SchemaForge
