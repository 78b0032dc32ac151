import Mathlib.Data.List.Pairwise
import SchemaForge.Proofs.Schema.Replacement

/-! Substitution and the other walks over a tree. A tree is the list of its nodes in the order of the walk: the list
    determines the tree, its placeholders are the occurrences, and a substitution puts the nodes of the replacement
    in the place of each placeholder of the name and of no other node. Substitutions for two names commute when
    neither replacement holds the other name. -/

namespace SchemaForge

/-- A node of a tree. The properties of an object follow it, up to a node that ends them. -/
inductive Expr.Node where
  | scalar (s : Scalar)
  | placeholder (name : String)
  | enumRef (name : String)
  | array
  | optional
  | object (id : String) (additionalProperties : Bool)
  | property (name : String)
  | objectEnd
  deriving DecidableEq

namespace Expr.Node

def placeholder? : Expr.Node → Option String
  | placeholder name => some name
  | _ => none

/-- The nodes that stand in the place of one node when `nodes n` stand in the place of a placeholder `n`. -/
def substituted (nodes : String → List Expr.Node) : Expr.Node → List Expr.Node
  | placeholder name => nodes name
  | node => [node]

end Expr.Node

mutual

/-- The nodes of a tree, in the order of the walks. -/
def Expr.walk : Expr → List Expr.Node
  | .scalar s => [.scalar s]
  | .placeholder n => [.placeholder n]
  | .enumRef n => [.enumRef n]
  | .array e => .array :: e.walk
  | .optional e => .optional :: e.walk
  | .object ⟨id, ps, additional⟩ => .object id additional :: Property.walkAll ps

def Property.walkAll : List Property → List Expr.Node
  | [] => [.objectEnd]
  | ⟨n, e⟩ :: ps => .property n :: (e.walk ++ Property.walkAll ps)

end

def ObjectSchema.walk (o : ObjectSchema) : List Expr.Node :=
  .object o.id o.additionalProperties :: Property.walkAll o.properties

theorem Expr.walk_object (o : ObjectSchema) : (Expr.object o).walk = o.walk := by
  obtain ⟨id, ps, additional⟩ := o
  rfl

/-! ### The nodes determine the tree -/

mutual

/-- The nodes of a tree say where they end, so what follows them can be told apart. -/
theorem Expr.walk_append_inj : ∀ (a b : Expr) {r r' : List Expr.Node}, a.walk ++ r = b.walk ++ r' → a = b ∧ r = r'
  | .scalar s, b, r, r', h => by
    cases b <;> simp [Expr.walk, Expr.walk_object, ObjectSchema.walk] at h
    obtain ⟨rfl, rfl⟩ := h
    exact ⟨rfl, rfl⟩
  | .placeholder n, b, r, r', h => by
    cases b <;> simp [Expr.walk, Expr.walk_object, ObjectSchema.walk] at h
    obtain ⟨rfl, rfl⟩ := h
    exact ⟨rfl, rfl⟩
  | .enumRef n, b, r, r', h => by
    cases b <;> simp [Expr.walk, Expr.walk_object, ObjectSchema.walk] at h
    obtain ⟨rfl, rfl⟩ := h
    exact ⟨rfl, rfl⟩
  | .array a, b, r, r', h => by
    cases b <;> simp [Expr.walk, Expr.walk_object, ObjectSchema.walk] at h
    obtain ⟨rfl, rfl⟩ := Expr.walk_append_inj a _ h
    exact ⟨rfl, rfl⟩
  | .optional a, b, r, r', h => by
    cases b <;> simp [Expr.walk, Expr.walk_object, ObjectSchema.walk] at h
    obtain ⟨rfl, rfl⟩ := Expr.walk_append_inj a _ h
    exact ⟨rfl, rfl⟩
  | .object ⟨id, ps, additional⟩, b, r, r', h => by
    cases b with
    | object o =>
      obtain ⟨id', qs, additional'⟩ := o
      simp only [Expr.walk, List.cons_append, List.cons.injEq, Expr.Node.object.injEq] at h
      obtain ⟨⟨rfl, rfl⟩, hps⟩ := h
      obtain ⟨rfl, rfl⟩ := Property.walkAll_append_inj ps qs hps
      exact ⟨rfl, rfl⟩
    | _ => simp [Expr.walk] at h

theorem Property.walkAll_append_inj : ∀ (ps qs : List Property) {r r' : List Expr.Node},
    Property.walkAll ps ++ r = Property.walkAll qs ++ r' → ps = qs ∧ r = r'
  | [], [], r, r', h => ⟨rfl, by simpa [Property.walkAll] using h⟩
  | [], ⟨m, b⟩ :: qs, r, r', h => by simp [Property.walkAll] at h
  | ⟨n, a⟩ :: ps, [], r, r', h => by simp [Property.walkAll] at h
  | ⟨n, a⟩ :: ps, ⟨m, b⟩ :: qs, r, r', h => by
    simp only [Property.walkAll, List.cons_append, List.append_assoc, List.cons.injEq, Expr.Node.property.injEq] at h
    obtain ⟨rfl, h⟩ := h
    obtain ⟨rfl, hps⟩ := Expr.walk_append_inj a b h
    obtain ⟨rfl, rfl⟩ := Property.walkAll_append_inj ps qs hps
    exact ⟨rfl, rfl⟩

end

theorem Expr.walk_inj {a b : Expr} (h : a.walk = b.walk) : a = b :=
  (Expr.walk_append_inj a b (congrArg (· ++ []) h)).1

theorem ObjectSchema.walk_inj {a b : ObjectSchema} (h : a.walk = b.walk) : a = b := by
  rw [← Expr.walk_object, ← Expr.walk_object] at h
  exact Expr.object.inj (Expr.walk_inj h)

/-! ### Occurrences, counts and replacements -/

mutual

theorem Expr.occurrences_eq_walk : ∀ e : Expr, e.occurrences = e.walk.filterMap Expr.Node.placeholder?
  | .placeholder _ => rfl
  | .array e => Expr.occurrences_eq_walk e
  | .optional e => Expr.occurrences_eq_walk e
  | .object ⟨_, ps, _⟩ => Property.occurrences_eq_walkAll ps
  | .scalar _ => rfl
  | .enumRef _ => rfl

theorem Property.occurrences_eq_walkAll : ∀ ps : List Property,
    Property.occurrences ps = (Property.walkAll ps).filterMap Expr.Node.placeholder?
  | [] => rfl
  | ⟨_, e⟩ :: ps => by
    rw [Property.occurrences, Expr.occurrences_eq_walk e, Property.occurrences_eq_walkAll ps, ← List.filterMap_append]
    rfl

end

mutual

/-- A substitution counts the placeholders of the name, and none in what it puts there. -/
theorem Expr.substitute_snd (name : String) (r : Expr) :
    ∀ e : Expr, (e.substitute name r).2 = e.occurrences.count name
  | .placeholder n => by
    by_cases h : n = name <;> simp [Expr.substitute, Expr.occurrences, h]
  | .array e => Expr.substitute_snd name r e
  | .optional e => Expr.substitute_snd name r e
  | .object ⟨_, ps, _⟩ => Property.substitute_snd name r ps
  | .scalar _ => rfl
  | .enumRef _ => rfl

theorem Property.substitute_snd (name : String) (r : Expr) :
    ∀ ps : List Property, (Property.substitute ps name r).2 = (Property.occurrences ps).count name
  | [] => rfl
  | ⟨_, e⟩ :: ps => by
    rw [Property.occurrences, List.count_append, ← Expr.substitute_snd name r e, ← Property.substitute_snd name r ps]
    rfl

end

mutual

theorem Expr.walk_bind (σ : String → Expr) :
    ∀ e : Expr, (e.bind σ).walk = e.walk.flatMap (Expr.Node.substituted fun n => (σ n).walk)
  | .placeholder _ => (List.flatMap_singleton _ _).symm
  | .array e => congrArg (Expr.Node.array :: ·) (Expr.walk_bind σ e)
  | .optional e => congrArg (Expr.Node.optional :: ·) (Expr.walk_bind σ e)
  | .object ⟨id, ps, additional⟩ => congrArg (Expr.Node.object id additional :: ·) (Property.walkAll_bindAll σ ps)
  | .scalar _ => rfl
  | .enumRef _ => rfl

theorem Property.walkAll_bindAll (σ : String → Expr) : ∀ ps : List Property, Property.walkAll (Property.bindAll σ ps) =
    (Property.walkAll ps).flatMap (Expr.Node.substituted fun n => (σ n).walk)
  | [] => rfl
  | ⟨n, e⟩ :: ps => by
    simp only [Property.bindAll, Property.walkAll, Expr.walk_bind σ e, Property.walkAll_bindAll σ ps,
      List.flatMap_cons, List.flatMap_append, Expr.Node.substituted, List.singleton_append]

end

section
variable {name : String} {r : Expr}

theorem Expr.Node.substituted_only : Expr.Node.substituted (fun n => (Expr.only name r n).walk) =
    fun node => if node = .placeholder name then r.walk else [node] := by
  funext node
  cases node with
  | placeholder n => by_cases h : n = name <;> simp [substituted, Expr.only, Expr.walk, h]
  | _ => rfl

theorem Expr.occurrences_only (n : String) :
    (Expr.only name r n).occurrences = if n = name then r.occurrences else [n] := by
  unfold Expr.only
  split <;> rfl

theorem Expr.bind_only_of_not_mem {e : Expr} (h : name ∉ e.occurrences) : e.bind (.only name r) = e := by
  refine Expr.bind_eq_self fun n hn => if_neg ?_
  rintro rfl
  exact h hn

end

namespace ObjectSchema
variable (o : ObjectSchema) (name : String) (r : Expr)

theorem substitute_fst : (o.substitute name r).1 = o.bind (.only name r) := o.replace_eq_bind name r

theorem substitute_snd : (o.substitute name r).2 = o.occurrences.count name :=
  Property.substitute_snd name r o.properties

theorem walk_bind (σ : String → Expr) :
    (o.bind σ).walk = o.walk.flatMap (Expr.Node.substituted fun n => (σ n).walk) := by
  rw [← Expr.walk_object, ← Expr.walk_object, ← Expr.bind_object]
  exact Expr.walk_bind σ (.object o)

end ObjectSchema

/-! ### The walks agree -/

/-- The walks over one type of trees visit the same nodes in the same order, and a substitution changes
    the placeholders of its name only, without going into what it puts in their place. -/
structure Expr.WalksAgree {T : Type} (walk : T → List Expr.Node) (occurrences : T → List String)
    (references : T → String → Bool) (placeholders : T → References) (substitute : T → String → Expr → T × Nat) :
    Prop where
  walk_inj : ∀ t u, walk t = walk u → t = u
  occurrences_eq : ∀ t, occurrences t = (walk t).filterMap Expr.Node.placeholder?
  references_iff : ∀ t name, references t name = true ↔ name ∈ occurrences t
  names_placeholders : ∀ t, (placeholders t).names = (occurrences t).eraseDups
  count_eq : ∀ t name r, (substitute t name r).2 = (occurrences t).count name
  occurrences_substitute : ∀ t name r, occurrences (substitute t name r).1 =
    (occurrences t).flatMap fun n => if n = name then r.occurrences else [n]
  walk_substitute : ∀ t name r, walk (substitute t name r).1 =
    (walk t).flatMap fun node => if node = .placeholder name then r.walk else [node]
  unchanged : ∀ t name r, (substitute t name r).2 = 0 → (substitute t name r).1 = t

/-- The walks over expressions agree, and so do those over object schemas. -/
theorem Expr.walks_agree :
    Expr.WalksAgree Expr.walk Expr.occurrences Expr.references (·.collectPlaceholders .empty) Expr.substitute ∧
    Expr.WalksAgree ObjectSchema.walk ObjectSchema.occurrences ObjectSchema.references ObjectSchema.placeholders
      ObjectSchema.substitute := by
  constructor
  · refine ⟨fun _ _ => Expr.walk_inj, Expr.occurrences_eq_walk, fun e _ => e.references_iff, fun e => ?_,
      fun e name r => Expr.substitute_snd name r e, fun e name r => ?_, fun e name r => ?_, fun e name r h => ?_⟩
    · rw [e.collectPlaceholders_eq]
      exact References.names_ofList e.occurrences
    · rw [Expr.substitute_fst, Expr.occurrences_bind]
      simp only [Expr.occurrences_only]
    · rw [Expr.substitute_fst, Expr.walk_bind, Expr.Node.substituted_only]
    · rw [Expr.substitute_snd] at h
      rw [Expr.substitute_fst, Expr.bind_only_of_not_mem (List.count_eq_zero.mp h)]
  · refine ⟨fun _ _ => ObjectSchema.walk_inj, fun o => Property.occurrences_eq_walkAll o.properties,
      fun o _ => ObjectSchema.references_iff, fun o => o.names_placeholders, fun o name r => o.substitute_snd name r,
      fun o name r => ?_, fun o name r => ?_, fun o name r h => ?_⟩
    · rw [o.substitute_fst, o.occurrences_bind]
      simp only [Expr.occurrences_only]
    · rw [o.substitute_fst, o.walk_bind, Expr.Node.substituted_only]
    · rw [o.substitute_snd] at h
      rw [o.substitute_fst]
      refine ObjectSchema.bind_eq_self fun n hn => if_neg ?_
      rintro rfl
      exact List.count_eq_zero.mp h hn

/-! ### Substitutions for two names -/

/-- Two names, and a replacement for each in which the other does not occur. -/
structure Expr.Independent (a : String) (ra : Expr) (b : String) (rb : Expr) : Prop where
  ne : a ≠ b
  left : b ∉ ra.occurrences
  right : a ∉ rb.occurrences

/-- Two substitutions yield the same tree in either order, and each counts what it counts when it comes first. -/
def Expr.Commute {T : Type} (substitute : T → String → Expr → T × Nat) (t : T) (a : String) (ra : Expr) (b : String)
    (rb : Expr) : Prop :=
  (substitute (substitute t a ra).1 b rb).1 = (substitute (substitute t b rb).1 a ra).1 ∧
    (substitute (substitute t b rb).1 a ra).2 = (substitute t a ra).2 ∧
    (substitute (substitute t a ra).1 b rb).2 = (substitute t b rb).2

namespace Expr.Independent
variable {a b : String} {ra rb : Expr}

theorem symm (h : Expr.Independent a ra b rb) : Expr.Independent b rb a ra := ⟨h.ne.symm, h.right, h.left⟩

/-- Each of the two names is replaced as if the other one were not. -/
theorem bind_only (h : Expr.Independent a ra b rb) :
    (fun n => (Expr.only a ra n).bind (.only b rb)) = fun n => (Expr.only b rb n).bind (.only a ra) := by
  funext n
  by_cases ha : n = a
  · subst ha
    simp [Expr.only, h.ne, Expr.bind, Expr.bind_only_of_not_mem h.left]
  by_cases hb : n = b
  · subst hb
    simp [Expr.only, ha, Expr.bind, Expr.bind_only_of_not_mem h.right]
  simp [Expr.only, ha, hb, Expr.bind]

/-- A replacement in which a name does not occur takes none of its occurrences away and adds none. -/
theorem count_flatMap (h : Expr.Independent a ra b rb) : ∀ names : List String,
    (names.flatMap fun n => (Expr.only b rb n).occurrences).count a = names.count a
  | [] => rfl
  | n :: names => by
    have hfirst : (Expr.only b rb n).occurrences.count a = [n].count a := by
      rw [Expr.occurrences_only]
      split
      · rename_i hb
        rw [List.count_eq_zero.mpr h.right, hb, List.count_singleton, if_neg (by simpa using h.ne.symm)]
      · rfl
    rw [List.flatMap_cons, List.count_append, hfirst, count_flatMap h names, ← List.count_append,
      List.singleton_append]

theorem count_bind (h : Expr.Independent a ra b rb) (e : Expr) :
    (e.bind (.only b rb)).occurrences.count a = e.occurrences.count a := by
  rw [Expr.occurrences_bind, h.count_flatMap]

theorem count_bindObject (h : Expr.Independent a ra b rb) (o : ObjectSchema) :
    (o.bind (.only b rb)).occurrences.count a = o.occurrences.count a := by
  rw [ObjectSchema.occurrences_bind, h.count_flatMap]

theorem replace_replace (h : Expr.Independent a ra b rb) (o : ObjectSchema) :
    (o.replace a ra).replace b rb = (o.replace b rb).replace a ra := by
  simp only [ObjectSchema.replace_eq_bind, ObjectSchema.bind_bind, h.bind_only]

end Expr.Independent

/-- Substitutions for two names commute when neither replacement holds the other name. -/
theorem Expr.substitutions_commute {a b : String} {ra rb : Expr} (h : Expr.Independent a ra b rb) :
    (∀ e : Expr, Expr.Commute Expr.substitute e a ra b rb) ∧
      ∀ o : ObjectSchema, Expr.Commute ObjectSchema.substitute o a ra b rb := by
  constructor
  · intro e
    refine ⟨?_, ?_, ?_⟩
    · simp only [Expr.substitute_fst, Expr.bind_bind, h.bind_only]
    · rw [Expr.substitute_snd, Expr.substitute_snd, Expr.substitute_fst, h.count_bind]
    · rw [Expr.substitute_snd, Expr.substitute_snd, Expr.substitute_fst, h.symm.count_bind]
  · intro o
    refine ⟨h.replace_replace o, ?_, ?_⟩
    · rw [ObjectSchema.substitute_snd, ObjectSchema.substitute_snd, ObjectSchema.substitute_fst, h.count_bindObject]
    · rw [ObjectSchema.substitute_snd, ObjectSchema.substitute_snd, ObjectSchema.substitute_fst,
        h.symm.count_bindObject]

/-- The replacement of a name may hold the name itself, and trees of any depth. -/
theorem Expr.substitutions_commute_nested :
    let user : Expr := .object ⟨"User_dep_2_model", [⟨"role", .placeholder "Level"⟩, ⟨"friend", .placeholder "User"⟩], false⟩
    let o : ObjectSchema := ⟨"Post_model", [⟨"author", .optional (.placeholder "User")⟩,
      ⟨"site", .object ⟨"Site_dep_3_model", [⟨"roles", .array (.placeholder "Role")⟩, ⟨"owner", .placeholder "User"⟩], true⟩⟩],
      false⟩
    Expr.Independent "User" user "Role" (.enumRef "Role") ∧
      Expr.Commute ObjectSchema.substitute o "User" user "Role" (.enumRef "Role") ∧
      (o.substitute "User" user).2 = 2 ∧ (o.substitute "Role" (.enumRef "Role")).2 = 1 := by
  intro user o
  have h : Expr.Independent "User" user "Role" (.enumRef "Role") := ⟨by decide, by decide, by decide⟩
  exact ⟨h, (substitutions_commute h).2 o, by decide, by decide⟩

/-- Replacements that are independent of each other may be made in any order. -/
theorem ObjectSchema.foldl_replace_perm {steps steps' : List (String × Expr)} (hperm : steps.Perm steps')
    (h : steps.Pairwise fun x y => Expr.Independent x.1 x.2 y.1 y.2) (o : ObjectSchema) :
    steps.foldl (fun o x => o.replace x.1 x.2) o = steps'.foldl (fun o x => o.replace x.1 x.2) o := by
  have : Std.Symm fun x y : String × Expr => Expr.Independent x.1 x.2 y.1 y.2 := ⟨fun _ _ h => h.symm⟩
  refine hperm.foldl_eq' (fun x hx y hy o => ?_) o
  by_cases hxy : x = y
  · rw [hxy]
  · exact (h.forall hx hy hxy).replace_replace o

end SchemaForge
