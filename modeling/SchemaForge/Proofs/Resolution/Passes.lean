import SchemaForge.Proofs.Schema.Replacement
import SchemaForge.Resolution

/-! Resolving as two replacements. Inlining the referenced models one after the other replaces, in one
    go, each name that stands for a model by that model's object under its number: an inlined object
    refers to no model of the document, so no later step reaches into it. Linking the enums is a second
    replacement, and it reaches every enum in both variants because both hold the same placeholders. -/

namespace SchemaForge

/-! ### Looking names up -/

namespace Document
variable {d : Document} {name : String} {m : Model}

theorem model?_name (h : d.model? name = some m) : m.name = name := by
  simpa using List.find?_some h

theorem model?_eq_none : d.model? name = none ↔ name ∉ d.modelNames := by
  simp [model?, modelNames]

theorem enum?_eq_none : d.enum? name = none ↔ name ∉ d.enumNames := by
  simp [enum?, enumNames]

theorem model?_isSome : (d.model? name).isSome = decide (name ∈ d.modelNames) := by
  rw [Bool.eq_iff_iff, decide_eq_true_eq, Option.isSome_iff_ne_none, ne_eq, model?_eq_none, Decidable.not_not]

theorem enum?_isSome : (d.enum? name).isSome = decide (name ∈ d.enumNames) := by
  rw [Bool.eq_iff_iff, decide_eq_true_eq, Option.isSome_iff_ne_none, ne_eq, enum?_eq_none, Decidable.not_not]

theorem enum?_isNone : (d.enum? name).isNone = decide (name ∉ d.enumNames) := by
  rw [← Option.not_isSome, enum?_isSome, decide_not]

/-- A name stands for a model when it names one and no enum. -/
theorem inlinable?_eq_some : d.inlinable? name = some m ↔ d.enum? name = none ∧ d.model? name = some m := by
  unfold inlinable?
  cases d.enum? name <;> simp

theorem inlinable?_isSome :
    (d.inlinable? name).isSome = (decide (name ∈ d.modelNames) && decide (name ∉ d.enumNames)) := by
  have he : (d.enum? name).isSome = decide (name ∈ d.enumNames) := enum?_isSome
  unfold inlinable?
  cases h : d.enum? name with
  | some e =>
    rw [h, Option.isSome_some, eq_comm, decide_eq_true_eq] at he
    simp [he]
  | none =>
    rw [h, Option.isSome_none, eq_comm, decide_eq_false_iff_not] at he
    simp [he, model?_isSome]

/-- A name stands for no model when every model of this name shares it with an enum. -/
theorem inlinable?_eq_none : d.inlinable? name = none ↔ (name ∈ d.modelNames → name ∈ d.enumNames) := by
  rw [← Option.not_isSome_iff_eq_none, inlinable?_isSome]
  simp

theorem inlinable?_of_not_mem (h : name ∉ d.modelNames) : d.inlinable? name = none :=
  inlinable?_eq_none.mpr fun hmodel => absurd hmodel h

/-- The names of a list that stand for models. -/
def dependencies (d : Document) (names : List String) : List String := names.filter fun n => (d.inlinable? n).isSome

theorem dependencies_cons_of_none {names : List String} (h : d.inlinable? name = none) :
    d.dependencies (name :: names) = d.dependencies names :=
  List.filter_cons_of_neg (by simp [h])

theorem dependencies_cons_of_some {names : List String} (h : d.inlinable? name = some m) :
    d.dependencies (name :: names) = name :: d.dependencies names :=
  List.filter_cons_of_pos (by simp [h])

end Document

/-! ### The schema of a model -/

namespace Field

theorem references_eq (f : Field) : f.references = f.leaf.occurrences := by
  unfold references leaf
  cases Scalar.ofTag? f.type <;> rfl

theorem occurrences_base (f : Field) : f.base.occurrences = f.references := by
  rw [references_eq, base]
  cases f.isList <;> rfl

theorem occurrences_property (f : Field) (v : Variant) : (f.property v).expr.occurrences = f.references := by
  rw [← occurrences_base, property]
  cases f.isOptionalIn v <;> rfl

end Field

namespace Model

/-- Both variants of a schema refer to the names that the kept fields refer to. -/
theorem occurrences_schema (m : Model) (place : Placement) (v : Variant) (number : Nat) :
    (m.schema place v number).occurrences = (m.keptFields place).flatMap (·.references) := by
  rw [schema, ObjectSchema.occurrences, Property.occurrences_eq_flatMap, List.flatMap_map]
  simp only [Field.occurrences_property]

theorem names_references (m : Model) (place : Placement) :
    (m.references place).names = ((m.keptFields place).flatMap (·.references)).eraseDups := by
  rw [references, References.insertAll_flatMap]
  exact References.names_ofList _

theorem not_mem_of_inlined {m : Model} {suppressed : List String} {v : Variant} {number : Nat} {name : String}
    (h : name ∈ (m.schema (.inlined suppressed) v number).occurrences) : name ∉ suppressed := by
  rw [occurrences_schema, List.mem_flatMap] at h
  obtain ⟨f, hf, hname⟩ := h
  have hkept := (List.mem_filter.mp hf).2
  simp only [Placement.keeps, Bool.not_eq_true', List.any_eq_false] at hkept
  intro hs
  exact hkept name hs (by simpa using hname)

end Model

/-! ### Inlining -/

namespace Document
variable {d : Document} {name : String} {m : Model}

/-- What a name is replaced by when the models of a list of names are inlined from a number. -/
def inlinedAt (d : Document) (v : Variant) (names : List String) (last : Nat) (name : String) : Expr :=
  match d.inlinable? name with
  | none => .placeholder name
  | some m =>
    if name ∈ names then
      .object (m.schema (.inlined d.modelNames) v (last + 1 + (d.dependencies names).idxOf name))
    else .placeholder name

theorem inlinedAt_of_none {v : Variant} {names : List String} {last : Nat} (h : d.inlinable? name = none) :
    d.inlinedAt v names last name = .placeholder name := by
  simp only [inlinedAt, h]

theorem inlinedAt_of_some {v : Variant} {names : List String} {last : Nat} (h : d.inlinable? name = some m)
    (hn : name ∈ names) : d.inlinedAt v names last name =
      .object (m.schema (.inlined d.modelNames) v (last + 1 + (d.dependencies names).idxOf name)) := by
  simp only [inlinedAt, h, if_pos hn]

/-- Later steps leave an inlined model alone: it refers to no model. -/
theorem bind_inlinedAt_schema (v v' : Variant) (names : List String) (last number : Nat) (m : Model) :
    (m.schema (.inlined d.modelNames) v' number).bind (d.inlinedAt v names last) =
      m.schema (.inlined d.modelNames) v' number :=
  ObjectSchema.bind_eq_self fun _ hn => inlinedAt_of_none (inlinable?_of_not_mem (Model.not_mem_of_inlined hn))

theorem inlinedAt_cons_of_none {v : Variant} {names : List String} {last : Nat} (h : d.inlinable? name = none) :
    d.inlinedAt v (name :: names) last = d.inlinedAt v names last := by
  funext n
  cases hn : d.inlinable? n with
  | none => rw [inlinedAt_of_none hn, inlinedAt_of_none hn]
  | some m =>
    have hne : n ≠ name := by
      rintro rfl
      rw [h] at hn
      cases hn
    simp only [inlinedAt, hn, List.mem_cons, hne, false_or, dependencies_cons_of_none h]

/-- Inlining one model and then those of a list inlines them all, the first under the next number. -/
theorem inlinedAt_cons_of_some {v : Variant} {names : List String} {last : Nat} (h : d.inlinable? name = some m)
    (n : String) :
    ((Expr.only name (.object (m.schema (.inlined d.modelNames) v (last + 1))) n).bind
      (d.inlinedAt v names (last + 1))) = d.inlinedAt v (name :: names) last n := by
  by_cases hn : n = name
  · subst hn
    rw [inlinedAt_of_some h List.mem_cons_self, dependencies_cons_of_some h, List.idxOf_cons_self, Expr.only,
      if_pos rfl, Expr.bind_object, bind_inlinedAt_schema]
  · rw [Expr.only, if_neg hn, Expr.bind]
    unfold inlinedAt
    cases d.inlinable? n with
    | none => rfl
    | some dep =>
      have hidx : (name :: d.dependencies names).idxOf n = (d.dependencies names).idxOf n + 1 := by
        rw [List.idxOf_cons, beq_false_of_ne (Ne.symm hn), cond_false]
      simp only [List.mem_cons, hn, false_or, dependencies_cons_of_some h, hidx, Nat.add_assoc, Nat.add_comm 1]

theorem run_inline_of_none (h : d.inlinable? name = none) (s : Inlining) (last : Nat) :
    (d.inline s name).run last = (s, last) := by
  simp only [inline, h]
  rfl

theorem run_inline_of_some (h : d.inlinable? name = some m) (s : Inlining) (last : Nat) :
    (d.inline s name).run last =
      (⟨s.canonical.replace name (.object (m.schema (.inlined d.modelNames) .canonical (last + 1))),
        s.input.replace name (.object (m.schema (.inlined d.modelNames) .input (last + 1))),
        s.inlined ++ [name]⟩, last + 1) := by
  simp only [inline, h]
  rfl

/-- Inlining along a list of names is one replacement, and takes one number for each model. -/
theorem run_foldlM_inline : ∀ (names : List String) (s : Inlining) (last : Nat),
    (names.foldlM d.inline s).run last =
      (⟨s.canonical.bind (d.inlinedAt .canonical names last), s.input.bind (d.inlinedAt .input names last),
        s.inlined ++ d.dependencies names⟩, last + (d.dependencies names).length)
  | [], s, last => by
    have hself : ∀ v, d.inlinedAt v [] last = .placeholder := by
      intro v
      funext n
      unfold inlinedAt
      cases d.inlinable? n <;> simp
    have hdeps : d.dependencies [] = [] := rfl
    rw [hself, hself, ObjectSchema.bind_placeholder, ObjectSchema.bind_placeholder, hdeps, List.append_nil]
    rfl
  | name :: names, s, last => by
    rw [List.foldlM_cons, StateT.run_bind]
    cases h : d.inlinable? name with
    | none =>
      rw [run_inline_of_none h]
      show (names.foldlM d.inline s).run last = _
      rw [run_foldlM_inline names s last, inlinedAt_cons_of_none h, inlinedAt_cons_of_none h,
        dependencies_cons_of_none h]
    | some m =>
      rw [run_inline_of_some h]
      show (names.foldlM d.inline _).run (last + 1) = _
      rw [run_foldlM_inline names _ (last + 1)]
      -- This step's substitution and the replacement by the rest fuse into one.
      simp only [ObjectSchema.replace_eq_bind, ObjectSchema.bind_bind, inlinedAt_cons_of_some h,
        dependencies_cons_of_some h, List.append_assoc, List.singleton_append, List.length_cons, Nat.add_assoc,
        Nat.add_comm 1]

theorem occurrences_inlinedAt (v v' : Variant) (names : List String) (last : Nat) (n : String) :
    (d.inlinedAt v names last n).occurrences = (d.inlinedAt v' names last n).occurrences := by
  unfold inlinedAt
  cases d.inlinable? n with
  | none => rfl
  | some m =>
    by_cases hn : n ∈ names
    · simp only [if_pos hn, Expr.occurrences_object, Model.occurrences_schema]
    · simp only [if_neg hn]

/-! ### Linking enums -/

/-- What a name is replaced by when the enums among a list of names are linked. -/
def linkedIn (d : Document) (names : List String) (name : String) : Expr :=
  if name ∈ names ∧ (d.enum? name).isSome = true then .enumRef name else .placeholder name

/-- What a name that is left is replaced by once all enums are linked. -/
def linked (d : Document) (name : String) : Expr :=
  if (d.enum? name).isSome = true then .enumRef name else .placeholder name

theorem linkedIn_cons_of_none {names : List String} (h : d.enum? name = none) :
    d.linkedIn (name :: names) = d.linkedIn names := by
  funext n
  by_cases hn : n = name
  · subst hn
    simp [linkedIn, h]
  · simp [linkedIn, hn]

theorem linkedIn_cons_of_some {names : List String} {e : Enum} (h : d.enum? name = some e) (n : String) :
    (Expr.only name (.enumRef name) n).bind (d.linkedIn names) = d.linkedIn (name :: names) n := by
  by_cases hn : n = name
  · subst hn
    simp [Expr.only, Expr.bind, linkedIn, h]
  · simp [Expr.only, Expr.bind, linkedIn, hn]

/-- Going along a list of names links the enums among them, imports those and notes the others. -/
theorem foldl_resolveEnum : ∀ (names : List String) (r : Resolved), names.foldl d.resolveEnum r =
    ⟨r.canonical.bind (d.linkedIn names), r.input.bind (d.linkedIn names), r.inlined,
      r.enumImports ++ names.filter (fun n => (d.enum? n).isSome),
      r.unresolved ++ names.filter fun n => (d.enum? n).isNone⟩
  | [], r => by
    have hself : d.linkedIn [] = .placeholder := by
      funext n
      simp [linkedIn]
    simp [hself, ObjectSchema.bind_placeholder]
  | name :: names, r => by
    rw [List.foldl_cons, foldl_resolveEnum names]
    cases h : d.enum? name with
    | none => simp [resolveEnum, h, linkedIn_cons_of_none h]
    | some e =>
      simp only [resolveEnum, h, ObjectSchema.replace_eq_bind, ObjectSchema.bind_bind, linkedIn_cons_of_some h]
      simp [h]

/-- Schemas of which the input one refers to nothing else than the canonical one. -/
theorem resolveEnums_eq {s : Inlining} (h : ∀ n ∈ s.input.occurrences, n ∈ s.canonical.occurrences) :
    d.resolveEnums s =
      ⟨s.canonical.bind d.linked, s.input.bind d.linked, s.inlined,
        s.canonical.placeholders.names.filter (fun n => (d.enum? n).isSome),
        s.canonical.placeholders.names.filter fun n => (d.enum? n).isNone⟩ := by
  -- The names are those of the canonical tree alone, so they cover the input tree only by `h`.
  have hlink : ∀ n ∈ s.canonical.occurrences, d.linkedIn s.canonical.placeholders.names n = d.linked n := by
    intro n hn
    simp only [linkedIn, linked, ObjectSchema.mem_placeholders.mpr hn, true_and]
  rw [resolveEnums, foldl_resolveEnum, List.nil_append, List.nil_append, ObjectSchema.bind_congr hlink,
    ObjectSchema.bind_congr fun n hn => hlink n (h n hn)]

/-! ### Both passes -/

/-- What a name of a fragment is replaced by in all. -/
def resolvedAt (d : Document) (v : Variant) (names : List String) (last : Nat) (name : String) : Expr :=
  (d.inlinedAt v names last name).bind d.linked

/-- Resolving a fragment whose input schema refers to nothing else than its canonical one. -/
theorem run_resolve {f : Fragment} (h : ∀ n ∈ f.input.occurrences, n ∈ f.canonical.occurrences) (last : Nat) :
    let names := f.references.names
    let left := (f.canonical.bind (d.inlinedAt .canonical names last)).placeholders.names
    (d.resolve f).run last =
      (⟨f.canonical.bind (d.resolvedAt .canonical names last), f.input.bind (d.resolvedAt .input names last),
        d.dependencies names, left.filter (fun n => (d.enum? n).isSome), left.filter fun n => (d.enum? n).isNone⟩,
        last + (d.dependencies names).length) := by
  intro names left
  rw [resolve, StateT.run_bind, run_foldlM_inline]
  have hsub : ∀ n ∈ (f.input.bind (d.inlinedAt .input names last)).occurrences,
      n ∈ (f.canonical.bind (d.inlinedAt .canonical names last)).occurrences := by
    intro n hn
    rw [ObjectSchema.occurrences_bind, List.mem_flatMap] at hn ⊢
    obtain ⟨x, hx, hnx⟩ := hn
    exact ⟨x, h x hx, by rwa [occurrences_inlinedAt .canonical .input]⟩
  show (d.resolveEnums _, _) = _
  rw [resolveEnums_eq hsub, ObjectSchema.bind_bind, ObjectSchema.bind_bind]
  rfl

end Document

end SchemaForge
