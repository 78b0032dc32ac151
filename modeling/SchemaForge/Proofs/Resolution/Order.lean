import Mathlib.Data.List.Nodup
import SchemaForge.Proofs.Resolution.Names
import SchemaForge.Proofs.Variant

/-! The order in which models and enums are declared. A resolution looks names up and never walks over the
    declarations, so where no model name stands twice their order does not reach the trees or the lists. The
    number that a resolution starts from reaches the identifiers of the inlined objects and nothing else. -/

namespace SchemaForge

/-! ### Trees under other numbers -/

mutual

/-- The expressions agree, but an object that is numbered `c + j` in one is numbered `c' + j` in the other. -/
inductive Expr.Renumbered (v : Variant) (c c' : Nat) : Expr → Expr → Prop
  | scalar (s : Scalar) : Expr.Renumbered v c c' (.scalar s) (.scalar s)
  | placeholder (name : String) : Expr.Renumbered v c c' (.placeholder name) (.placeholder name)
  | enumRef (name : String) : Expr.Renumbered v c c' (.enumRef name) (.enumRef name)
  | array {e e' : Expr} : Expr.Renumbered v c c' e e' → Expr.Renumbered v c c' (.array e) (.array e')
  | optional {e e' : Expr} : Expr.Renumbered v c c' e e' → Expr.Renumbered v c c' (.optional e) (.optional e')
  | object {name : String} {j : Nat} {ps ps' : List Property} {additional : Bool} :
    Property.Renumbered v c c' ps ps' →
    Expr.Renumbered v c c' (.object ⟨v.dependencyId name (c + j), ps, additional⟩)
      (.object ⟨v.dependencyId name (c' + j), ps', additional⟩)

inductive Property.Renumbered (v : Variant) (c c' : Nat) : List Property → List Property → Prop
  | nil : Property.Renumbered v c c' [] []
  | cons {name : String} {e e' : Expr} {ps ps' : List Property} : Expr.Renumbered v c c' e e' →
    Property.Renumbered v c c' ps ps' → Property.Renumbered v c c' (⟨name, e⟩ :: ps) (⟨name, e'⟩ :: ps')

end

section
variable {v : Variant} {c c' : Nat}

theorem Expr.Renumbered.of_object {o : ObjectSchema} {e : Expr} (h : Expr.Renumbered v c c' (.object o) e) :
    ∃ name j ps', o.id = v.dependencyId name (c + j) ∧ Property.Renumbered v c c' o.properties ps' ∧
      e = .object ⟨v.dependencyId name (c' + j), ps', o.additionalProperties⟩ := by
  cases h with
  | object hps => exact ⟨_, _, _, rfl, hps, rfl⟩

mutual

/-- The first tree and the two numbers determine the second tree. -/
theorem Expr.Renumbered.unique {e a b : Expr} : Expr.Renumbered v c c' e a → Expr.Renumbered v c c' e b → a = b
  | .scalar _, h => by
    cases h
    rfl
  | .placeholder _, h => by
    cases h
    rfl
  | .enumRef _, h => by
    cases h
    rfl
  | .array he, h => by
    cases h with
    | array he' => rw [he.unique he']
  | .optional he, h => by
    cases h with
    | optional he' => rw [he.unique he']
  | .object hps, h => by
    obtain ⟨name', j', ps', hid, hps', rfl⟩ := h.of_object
    obtain ⟨-, rfl, hj⟩ := Variant.dependencyId_inj hid
    obtain rfl := Nat.add_left_cancel hj
    rw [hps.unique hps']

theorem Property.Renumbered.unique {ps qs qs' : List Property} :
    Property.Renumbered v c c' ps qs → Property.Renumbered v c c' ps qs' → qs = qs'
  | .nil, h => by
    cases h
    rfl
  | .cons he hps, h => by
    cases h with
    | cons he' hps' => rw [he.unique he', hps.unique hps']

end

/-- Fields whose leaves agree but for the numbers have properties that do. -/
theorem Property.Renumbered.of_leaves {w : Variant} {leaf leaf' : String → Expr} {fs : List Field}
    (h : ∀ f ∈ fs, Expr.Renumbered v c c' (leaf f.type) (leaf' f.type)) :
    Property.Renumbered v c c' (fs.map fun f => f.propertyOver w (leaf f.type))
      (fs.map fun f => f.propertyOver w (leaf' f.type)) := by
  induction fs with
  | nil => exact .nil
  | cons f fs ih =>
    have hleaf := h f List.mem_cons_self
    refine .cons ?_ (ih fun g hg => h g (List.mem_cons_of_mem f hg))
    -- The wrappers come from the field alone.
    cases f.isOptionalIn w <;> cases f.isList
    · exact hleaf
    · exact hleaf.array
    · exact hleaf.optional
    · exact hleaf.array.optional

end

namespace Document
variable {d d' : Document} {m : Model} {n : String}

theorem renumbered_nestedLeaf (d : Document) (v : Variant) (c c' : Nat) (type : String) :
    Expr.Renumbered v c c' (d.nestedLeaf type) (d.nestedLeaf type) := by
  rcases d.nestedLeaf_cases type with ⟨s, h⟩ | ⟨-, h⟩ | h
  · rw [h]
    exact .scalar s
  · rw [h]
    exact .enumRef type
  · rw [h]
    exact .placeholder type

theorem renumbered_expandedLeaf (d : Document) (m : Model) (v : Variant) (c c' : Nat) (type : String) :
    Expr.Renumbered v c c' (d.expandedLeaf m v c type) (d.expandedLeaf m v c' type) := by
  rcases d.expandedLeaf_cases m type with ⟨s, h⟩ | ⟨-, h⟩ | h | ⟨dependency, -, h⟩
  · rw [h, h]
    exact .scalar s
  · rw [h, h]
    exact .enumRef type
  · rw [h, h]
    exact .placeholder type
  · rw [h, h, Nat.add_assoc c, Nat.add_assoc c']
    exact .object (.of_leaves fun f _ => renumbered_nestedLeaf d v c c' f.type)

/-! ### Documents that declare the same -/

/-- Every name stands for the same model in both documents, and for an enum in both or in neither. -/
structure Declares (d d' : Document) : Prop where
  model : ∀ n, d'.model? n = d.model? n
  enum : ∀ n, n ∈ d'.enumNames ↔ n ∈ d.enumNames

theorem model?_eq_some_iff (h : d.modelNames.Nodup) : d.model? n = some m ↔ m ∈ d.models ∧ m.name = n := by
  constructor
  · intro hm
    exact ⟨List.mem_of_find?_eq_some hm, model?_name hm⟩
  · rintro ⟨hm, rfl⟩
    cases hfound : d.model? m.name with
    | none => exact absurd (List.mem_map_of_mem hm) (model?_eq_none.mp hfound)
    | some m' => rw [List.inj_on_of_nodup_map h (List.mem_of_find?_eq_some hfound) hm (model?_name hfound)]

/-- The same models and enums in another order. -/
theorem declares_of_perm (hmodels : d.models.Perm d'.models) (henums : d.enums.Perm d'.enums)
    (h : d.modelNames.Nodup) : d.Declares d' := by
  have h' : d'.modelNames.Nodup := (hmodels.map Model.name).nodup_iff.mp h
  refine ⟨fun n => Option.ext fun m => ?_, fun n => (henums.map Enum.name).mem_iff.symm⟩
  rw [model?_eq_some_iff h, model?_eq_some_iff h', hmodels.mem_iff]

namespace Declares

theorem mem_modelNames (h : d.Declares d') : n ∈ d'.modelNames ↔ n ∈ d.modelNames := by
  rw [← not_iff_not, ← model?_eq_none, ← model?_eq_none, h.model]

theorem inlinable? (h : d.Declares d') (n : String) : d'.inlinable? n = d.inlinable? n := by
  refine Option.ext fun m => ?_
  rw [inlinable?_eq_some, inlinable?_eq_some, enum?_eq_none, enum?_eq_none, h.enum, h.model]

theorem inlinedNames (h : d.Declares d') (m : Model) : d'.inlinedNames m = d.inlinedNames m := by
  unfold Document.inlinedNames
  simp only [h.enum, h.mem_modelNames]

theorem expansion (h : d.Declares d') (m : Model) (v : Variant) (last : Nat) :
    d'.expansion m v last = d.expansion m v last := by
  simp only [Document.expansion, expandedLeaf, inlinedObject, nestedLeaf, h.enum, h.model, h.mem_modelNames,
    h.inlinedNames]

theorem namesLeft (h : d.Declares d') (m : Model) : d'.namesLeft m = d.namesLeft m := by
  have hkept : ∀ m : Model, m.keptFields (.inlined d'.modelNames) = m.keptFields (.inlined d.modelNames) := by
    refine fun m => List.filter_congr fun f _ => ?_
    simp only [Placement.keeps_inlined, h.mem_modelNames]
  unfold Document.namesLeft namesLeftBy
  simp only [h.inlinable?, hkept]

end Declares

/-- Where no model name stands twice, the order of the declarations and the number that a resolution starts from
    change nothing but the numbers of the inlined objects: those are counted from the one start or from the other. -/
theorem resolveModel_perm (hmodels : d.models.Perm d'.models) (henums : d.enums.Perm d'.enums)
    (hnodup : d.modelNames.Nodup) (m : Model) (c c' : Nat) :
    let r := ((d.resolveModel m).run c).1
    let r' := ((d'.resolveModel m).run c').1
    r'.inlined = r.inlined ∧ r'.enumImports = r.enumImports ∧ r'.unresolved = r.unresolved ∧
      ∀ v, (r'.schema v).id = (r.schema v).id ∧
        (r'.schema v).additionalProperties = (r.schema v).additionalProperties ∧
        ∀ ps, Property.Renumbered v c c' (r.schema v).properties ps ↔ ps = (r'.schema v).properties := by
  intro r r'
  have h := declares_of_perm hmodels henums hnodup
  refine ⟨?_, ?_, ?_, fun v => ?_⟩
  · rw [inlined_resolveModel, inlined_resolveModel, h.inlinedNames]
  · rw [enumImports_resolveModel, enumImports_resolveModel, h.namesLeft]
    simp only [h.enum]
  · rw [unresolved_resolveModel, unresolved_resolveModel, h.namesLeft]
    simp only [h.enum]
  · have hschema : r.schema v = d.expansion m v c := d.schema_resolveModel m v c
    have hschema' : r'.schema v = d.expansion m v c' := (d'.schema_resolveModel m v c').trans (h.expansion m v c')
    have hps : Property.Renumbered v c c' (r.schema v).properties (r'.schema v).properties := by
      rw [hschema, hschema']
      exact .of_leaves fun f _ => d.renumbered_expandedLeaf m v c c' f.type
    refine ⟨by rw [hschema, hschema']; rfl, by rw [hschema, hschema']; rfl, fun ps => ⟨fun hps' => hps'.unique hps, ?_⟩⟩
    rintro rfl
    exact hps

theorem resolveModel_perm_blog :
    let post : Model := ⟨"Post", [.new "author" "User", .new "tag" "Tag", .new "state" "State"]⟩
    let user : Model := ⟨"User", [.new "posts" "Post", .new "role" "Role"]⟩
    let d : Document := ⟨[post, user], [⟨"Role", []⟩, ⟨"State", []⟩]⟩
    let d' : Document := ⟨[user, post], [⟨"State", []⟩, ⟨"Role", []⟩]⟩
    let r := ((d.resolveModel user).run 2).1
    let r' := ((d'.resolveModel user).run 8).1
    d.modelNames.Nodup ∧ r'.inlined = ["Post"] ∧ r'.unresolved = ["Tag"] ∧
      Property.Renumbered .input 2 8 r.input.properties r'.input.properties := by
  intro post user d d' r r'
  have hmodels : d.models.Perm d'.models := List.Perm.swap _ _ []
  have henums : d.enums.Perm d'.enums := List.Perm.swap _ _ []
  obtain ⟨hinlined, -, hunresolved, hschema⟩ := resolveModel_perm hmodels henums (by decide) user 2 8
  exact ⟨by decide, hinlined.trans (by decide), hunresolved.trans (by decide), ((hschema .input).2.2 _).mpr rfl⟩

end Document

end SchemaForge
