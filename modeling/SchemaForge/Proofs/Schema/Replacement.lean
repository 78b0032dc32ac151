import SchemaForge.Proofs.References
import SchemaForge.Schema.Basic

/-! Replacing all placeholders of a schema tree at once. Substituting for one name is the special case
    that leaves the other names alone, and two replacements one after the other are one replacement,
    so a sequence of substitutions is a single one whose value at each name can be computed. -/

namespace SchemaForge

mutual

/-- Puts `σ n` in the place of every placeholder `n`. -/
def Expr.bind (σ : String → Expr) : Expr → Expr
  | .placeholder n => σ n
  | .array e => .array (e.bind σ)
  | .optional e => .optional (e.bind σ)
  | .object ⟨id, ps, additional⟩ => .object ⟨id, Property.bindAll σ ps, additional⟩
  | .scalar s => .scalar s
  | .enumRef n => .enumRef n

def Property.bindAll (σ : String → Expr) : List Property → List Property
  | [] => []
  | ⟨n, e⟩ :: ps => ⟨n, e.bind σ⟩ :: Property.bindAll σ ps

end

/-- Puts `σ n` in the place of every placeholder `n` of an object. -/
def ObjectSchema.bind (σ : String → Expr) (o : ObjectSchema) : ObjectSchema :=
  ⟨o.id, Property.bindAll σ o.properties, o.additionalProperties⟩

/-- The replacement of one name, which leaves the others as they are. -/
def Expr.only (name : String) (replacement : Expr) (n : String) : Expr :=
  if n = name then replacement else .placeholder n

theorem Property.bindAll_eq_map (σ : String → Expr) :
    ∀ ps : List Property, Property.bindAll σ ps = ps.map fun p => ⟨p.name, p.expr.bind σ⟩
  | [] => rfl
  | ⟨n, e⟩ :: ps => by rw [Property.bindAll, Property.bindAll_eq_map σ ps, List.map_cons]

theorem Expr.bind_object (σ : String → Expr) (o : ObjectSchema) : (Expr.object o).bind σ = .object (o.bind σ) := by
  obtain ⟨id, ps, additional⟩ := o
  rfl

theorem Expr.occurrences_object (o : ObjectSchema) : (Expr.object o).occurrences = o.occurrences := by
  obtain ⟨id, ps, additional⟩ := o
  rfl

/-! ### Substituting for one name -/

mutual

theorem Expr.substitute_fst (name : String) (r : Expr) : ∀ e : Expr, (e.substitute name r).1 = e.bind (.only name r)
  | .placeholder n => by
    by_cases h : n = name <;> simp [Expr.substitute, Expr.bind, Expr.only, h]
  | .array e => by simp only [Expr.substitute, Expr.bind, Expr.substitute_fst name r e]
  | .optional e => by simp only [Expr.substitute, Expr.bind, Expr.substitute_fst name r e]
  | .object ⟨_, ps, _⟩ => by simp only [Expr.substitute, Expr.bind, Property.substitute_fst name r ps]
  | .scalar _ => rfl
  | .enumRef _ => rfl

theorem Property.substitute_fst (name : String) (r : Expr) :
    ∀ ps : List Property, (Property.substitute ps name r).1 = Property.bindAll (.only name r) ps
  | [] => rfl
  | ⟨_, e⟩ :: ps => by
    simp only [Property.substitute, Property.bindAll, Expr.substitute_fst name r e, Property.substitute_fst name r ps]

end

theorem ObjectSchema.replace_eq_bind (o : ObjectSchema) (name : String) (r : Expr) :
    o.replace name r = o.bind (.only name r) := by
  simp only [ObjectSchema.replace, ObjectSchema.substitute, ObjectSchema.bind, Property.substitute_fst]

/-! ### Laws -/

mutual

theorem Expr.bind_bind (σ τ : String → Expr) : ∀ e : Expr, (e.bind σ).bind τ = e.bind fun n => (σ n).bind τ
  | .placeholder _ => rfl
  | .array e => by simp only [Expr.bind, Expr.bind_bind σ τ e]
  | .optional e => by simp only [Expr.bind, Expr.bind_bind σ τ e]
  | .object ⟨_, ps, _⟩ => by simp only [Expr.bind, Property.bindAll_bindAll σ τ ps]
  | .scalar _ => rfl
  | .enumRef _ => rfl

theorem Property.bindAll_bindAll (σ τ : String → Expr) : ∀ ps : List Property,
    Property.bindAll τ (Property.bindAll σ ps) = Property.bindAll (fun n => (σ n).bind τ) ps
  | [] => rfl
  | ⟨_, e⟩ :: ps => by simp only [Property.bindAll, Expr.bind_bind σ τ e, Property.bindAll_bindAll σ τ ps]

end

mutual

/-- A replacement matters only at the names that occur. -/
theorem Expr.bind_congr {σ τ : String → Expr} :
    ∀ e : Expr, (∀ n ∈ e.occurrences, σ n = τ n) → e.bind σ = e.bind τ
  | .placeholder n, h => h n (by simp [Expr.occurrences])
  | .array e, h => by simp only [Expr.bind, Expr.bind_congr e h]
  | .optional e, h => by simp only [Expr.bind, Expr.bind_congr e h]
  | .object ⟨_, ps, _⟩, h => by simp only [Expr.bind, Property.bindAll_congr ps h]
  | .scalar _, _ => rfl
  | .enumRef _, _ => rfl

theorem Property.bindAll_congr {σ τ : String → Expr} : ∀ ps : List Property,
    (∀ n ∈ Property.occurrences ps, σ n = τ n) → Property.bindAll σ ps = Property.bindAll τ ps
  | [], _ => rfl
  | ⟨_, e⟩ :: ps, h => by
    have he := Expr.bind_congr e fun n hn => h n (List.mem_append.mpr (Or.inl hn))
    have hps := Property.bindAll_congr ps fun n hn => h n (List.mem_append.mpr (Or.inr hn))
    simp only [Property.bindAll, he, hps]

end

mutual

theorem Expr.bind_placeholder : ∀ e : Expr, e.bind .placeholder = e
  | .placeholder _ => rfl
  | .array e => by simp only [Expr.bind, Expr.bind_placeholder e]
  | .optional e => by simp only [Expr.bind, Expr.bind_placeholder e]
  | .object ⟨_, ps, _⟩ => by simp only [Expr.bind, Property.bindAll_placeholder ps]
  | .scalar _ => rfl
  | .enumRef _ => rfl

theorem Property.bindAll_placeholder : ∀ ps : List Property, Property.bindAll .placeholder ps = ps
  | [] => rfl
  | ⟨_, e⟩ :: ps => by simp only [Property.bindAll, Expr.bind_placeholder e, Property.bindAll_placeholder ps]

end

mutual

/-- Each placeholder gives way to what occurs in its replacement. -/
theorem Expr.occurrences_bind (σ : String → Expr) :
    ∀ e : Expr, (e.bind σ).occurrences = e.occurrences.flatMap fun n => (σ n).occurrences
  | .placeholder _ => by simp only [Expr.bind, Expr.occurrences, List.flatMap_singleton]
  | .array e => Expr.occurrences_bind σ e
  | .optional e => Expr.occurrences_bind σ e
  | .object ⟨_, ps, _⟩ => Property.occurrences_bindAll σ ps
  | .scalar _ => rfl
  | .enumRef _ => rfl

theorem Property.occurrences_bindAll (σ : String → Expr) : ∀ ps : List Property,
    Property.occurrences (Property.bindAll σ ps) = (Property.occurrences ps).flatMap fun n => (σ n).occurrences
  | [] => rfl
  | ⟨_, e⟩ :: ps => by
    simp only [Property.bindAll, Property.occurrences, List.flatMap_append, Expr.occurrences_bind σ e,
      Property.occurrences_bindAll σ ps]

end

mutual

/-- A tree without enums has, after a replacement, those of what is put into it. -/
theorem Expr.enumNames_bind (σ : String → Expr) : ∀ e : Expr, e.enumNames = [] →
    (e.bind σ).enumNames = e.occurrences.flatMap fun n => (σ n).enumNames
  | .placeholder _, _ => by simp only [Expr.bind, Expr.occurrences, List.flatMap_singleton]
  | .array e, h => Expr.enumNames_bind σ e h
  | .optional e, h => Expr.enumNames_bind σ e h
  | .object ⟨_, ps, _⟩, h => Property.enumNames_bindAll σ ps h
  | .scalar _, _ => rfl
  | .enumRef _, h => nomatch h

theorem Property.enumNames_bindAll (σ : String → Expr) : ∀ ps : List Property, Property.enumNames ps = [] →
    Property.enumNames (Property.bindAll σ ps) = (Property.occurrences ps).flatMap fun n => (σ n).enumNames
  | [], _ => rfl
  | ⟨_, e⟩ :: ps, h => by
    obtain ⟨he, hps⟩ := List.append_eq_nil_iff.mp h
    simp only [Property.bindAll, Property.enumNames, Property.occurrences, List.flatMap_append,
      Expr.enumNames_bind σ e he, Property.enumNames_bindAll σ ps hps]

end

theorem Property.enumNames_eq_flatMap :
    ∀ ps : List Property, Property.enumNames ps = ps.flatMap fun p => p.expr.enumNames
  | [] => rfl
  | ⟨_, e⟩ :: ps => by rw [Property.enumNames, Property.enumNames_eq_flatMap ps, List.flatMap_cons]

theorem Property.occurrences_eq_flatMap :
    ∀ ps : List Property, Property.occurrences ps = ps.flatMap fun p => p.expr.occurrences
  | [] => rfl
  | ⟨_, e⟩ :: ps => by rw [Property.occurrences, Property.occurrences_eq_flatMap ps, List.flatMap_cons]

/-- A tree stays as it is when every name that occurs in it stands for itself. -/
theorem Expr.bind_eq_self {σ : String → Expr} {e : Expr} (h : ∀ n ∈ e.occurrences, σ n = .placeholder n) :
    e.bind σ = e :=
  (Expr.bind_congr e h).trans (Expr.bind_placeholder e)

namespace ObjectSchema

theorem bind_bind (σ τ : String → Expr) (o : ObjectSchema) : (o.bind σ).bind τ = o.bind fun n => (σ n).bind τ := by
  simp only [bind, Property.bindAll_bindAll]

theorem bind_congr {σ τ : String → Expr} {o : ObjectSchema} (h : ∀ n ∈ o.occurrences, σ n = τ n) :
    o.bind σ = o.bind τ := by
  simp only [bind, Property.bindAll_congr o.properties h]

theorem bind_eq_self {σ : String → Expr} {o : ObjectSchema} (h : ∀ n ∈ o.occurrences, σ n = .placeholder n) :
    o.bind σ = o := by
  obtain ⟨id, ps, additional⟩ := o
  rw [bind_congr h]
  simp only [bind, Property.bindAll_placeholder]

theorem bind_placeholder (o : ObjectSchema) : o.bind .placeholder = o := bind_eq_self fun _ _ => rfl

theorem occurrences_bind (σ : String → Expr) (o : ObjectSchema) :
    (o.bind σ).occurrences = o.occurrences.flatMap fun n => (σ n).occurrences :=
  Property.occurrences_bindAll σ o.properties

theorem enumNames_bind (σ : String → Expr) {o : ObjectSchema} (h : o.enumNames = []) :
    (o.bind σ).enumNames = o.occurrences.flatMap fun n => (σ n).enumNames :=
  Property.enumNames_bindAll σ o.properties h

end ObjectSchema

/-! ### Collecting names -/

mutual

theorem Expr.collectPlaceholders_eq :
    ∀ (e : Expr) (into : References), e.collectPlaceholders into = into.insertAll e.occurrences
  | .placeholder _, _ => rfl
  | .array e, into => Expr.collectPlaceholders_eq e into
  | .optional e, into => Expr.collectPlaceholders_eq e into
  | .object ⟨_, ps, _⟩, into => Property.collectPlaceholders_eq ps into
  | .scalar _, _ => rfl
  | .enumRef _, _ => rfl

theorem Property.collectPlaceholders_eq : ∀ (ps : List Property) (into : References),
    Property.collectPlaceholders ps into = into.insertAll (Property.occurrences ps)
  | [], _ => rfl
  | ⟨_, e⟩ :: ps, into => by
    rw [Property.collectPlaceholders, Property.occurrences, Expr.collectPlaceholders_eq e,
      Property.collectPlaceholders_eq ps, References.insertAll_append]

end

mutual

/-- A tree refers to the names that occur in it. -/
theorem Expr.references_iff {name : String} : ∀ e : Expr, e.references name = true ↔ name ∈ e.occurrences
  | .placeholder n => by
    rw [Expr.references, Expr.occurrences, decide_eq_true_eq, List.mem_singleton, eq_comm]
  | .array e => Expr.references_iff e
  | .optional e => Expr.references_iff e
  | .object ⟨_, ps, _⟩ => Property.anyReferences_iff ps
  | .scalar _ => by simp [Expr.references, Expr.occurrences]
  | .enumRef _ => by simp [Expr.references, Expr.occurrences]

theorem Property.anyReferences_iff {name : String} :
    ∀ ps : List Property, Property.anyReferences ps name = true ↔ name ∈ Property.occurrences ps
  | [] => by simp [Property.anyReferences, Property.occurrences]
  | ⟨_, e⟩ :: ps => by
    rw [Property.anyReferences, Property.occurrences, Bool.or_eq_true, List.mem_append, Expr.references_iff e,
      Property.anyReferences_iff ps]

end

theorem ObjectSchema.references_iff {o : ObjectSchema} {name : String} :
    o.references name = true ↔ name ∈ o.occurrences :=
  Property.anyReferences_iff o.properties

/-- The placeholders of an object are the names that occur in it, each at its first place. -/
theorem ObjectSchema.names_placeholders (o : ObjectSchema) : o.placeholders.names = o.occurrences.eraseDups := by
  rw [ObjectSchema.placeholders, ObjectSchema.collectPlaceholders, Property.collectPlaceholders_eq]
  exact References.names_ofList o.occurrences

theorem ObjectSchema.mem_placeholders {o : ObjectSchema} {n : String} :
    n ∈ o.placeholders.names ↔ n ∈ o.occurrences := by
  rw [ObjectSchema.names_placeholders, List.mem_eraseDups]

end SchemaForge
