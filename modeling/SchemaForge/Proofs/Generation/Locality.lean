import SchemaForge.Proofs.Generation.Pass

/-! What the entity of a model depends on. Resolving a model reads the document only at the names that the model
    refers to: whether each is an enum, which model it stands for, and which fields of that model are kept. So a
    model that nothing refers to, at the end of the others, takes its numbers last and changes no other entity. -/

namespace SchemaForge

/-! ### Documents that agree -/

/-- The documents have the same enums, each of the names stands for the same model in both, and that model keeps
    the same fields where it is inlined. -/
structure Document.AgreesOn (d d' : Document) (names : List String) : Prop where
  enums : d'.enums = d.enums
  inlinable : ∀ n ∈ names, d'.inlinable? n = d.inlinable? n
  kept : ∀ n ∈ names, ∀ m, d.inlinable? n = some m →
    m.keptFields (.inlined d'.modelNames) = m.keptFields (.inlined d.modelNames)

/-- The suppressed names matter to a fragment only through the fields that are kept. -/
theorem Model.fragment_congr {m : Model} {suppressed suppressed' : List String}
    (h : m.keptFields (.inlined suppressed') = m.keptFields (.inlined suppressed)) :
    m.fragment (.inlined suppressed') = m.fragment (.inlined suppressed) := by
  simp only [fragment, schema, references, h, Placement.id]

namespace Document
variable {d d' : Document} {names : List String}

theorem AgreesOn.inline (h : d.AgreesOn d' names) {name : String} (hn : name ∈ names) (s : Inlining) :
    d'.inline s name = d.inline s name := by
  unfold Document.inline
  rw [h.inlinable name hn]
  cases hm : d.inlinable? name with
  | none => rfl
  | some m => simp only [Model.fragment_congr (h.kept name hn m hm)]

theorem AgreesOn.foldlM_inline (h : d.AgreesOn d' names) (s : Inlining) :
    names.foldlM d'.inline s = names.foldlM d.inline s := by
  have hall : ∀ ns : List String, (∀ n ∈ ns, n ∈ names) → ∀ s, ns.foldlM d'.inline s = ns.foldlM d.inline s := by
    intro ns
    induction ns with
    | nil => exact fun _ _ => rfl
    | cons n ns ih =>
      intro hsub s
      rw [List.foldlM_cons, List.foldlM_cons, h.inline (hsub n List.mem_cons_self)]
      exact congrArg _ (funext fun s => ih (fun n hn => hsub n (List.mem_cons_of_mem _ hn)) s)
  exact hall names (fun _ hn => hn) s

theorem AgreesOn.resolveEnums (h : d.AgreesOn d' names) : d'.resolveEnums = d.resolveEnums := by
  have hstep : d'.resolveEnum = d.resolveEnum := by
    funext r n
    simp only [resolveEnum, enum?, h.enums]
  funext s
  rw [Document.resolveEnums, Document.resolveEnums, hstep]

/-- Documents that agree on what a model refers to resolve it alike, from any number. -/
theorem AgreesOn.resolveModel {m : Model} (h : d.AgreesOn d' (m.references .topLevel).names) :
    d'.resolveModel m = d.resolveModel m := by
  funext last
  show (d'.resolve ⟨_, _, m.references .topLevel⟩).run (last + 1) = (d.resolve _).run (last + 1)
  rw [resolve, resolve, h.foldlM_inline, h.resolveEnums]

end Document

/-! ### Passes over lists of models -/

namespace Generation
variable {d d' : Document}

theorem generateModels_congr (o : Options) {ms : List Model} (h : ∀ m ∈ ms, d'.resolveModel m = d.resolveModel m) :
    generateModels d' o ms = generateModels d o ms := by
  induction ms with
  | nil => rfl
  | cons m ms ih =>
    rw [generateModels, generateModels, ih fun m hm => h m (List.mem_cons_of_mem _ hm), generateModel, generateModel,
      h m List.mem_cons_self]

/-- A pass over two lists goes over the second from the number that the first ends with. -/
theorem run_generateModels_append (d : Document) (o : Options) (ms ns : List Model) (last : Nat) :
    ((generateModels d o (ms ++ ns)).run last).1 =
      ((generateModels d o ms).run last).1 ++ ((generateModels d o ns).run ((generateModels d o ms).run last).2).1 := by
  induction ms generalizing last with
  | nil => rfl
  | cons m ms ih =>
    have hrest := ih ((generateModel d o m).run last).2
    exact congrArg (((generateModel d o m).run last).1 :: ·) hrest

end Generation

/-! ### One more model -/

namespace Document
variable {d : Document} {x : Model}

/-- The document with one more model, after the others. -/
def addModel (d : Document) (x : Model) : Document := { d with models := d.models ++ [x] }

theorem modelNames_addModel (d : Document) (x : Model) : (d.addModel x).modelNames = d.modelNames ++ [x.name] := by
  rw [modelNames, addModel, List.map_append]
  rfl

theorem inlinable?_addModel {n : String} (h : n ≠ x.name) : (d.addModel x).inlinable? n = d.inlinable? n := by
  have hmodel : (d.addModel x).model? n = d.model? n := by
    rw [model?, addModel, List.find?_append, List.find?_singleton, if_neg (by simpa using Ne.symm h), Option.or_none]
    rfl
  rw [inlinable?, inlinable?, hmodel]
  rfl

/-- A model that no field of a document refers to leaves its models' references as they were. -/
theorem agreesOn_addModel
    (h : (Scalar.ofTag? x.name).isSome = true ∨ ∀ m ∈ d.models, ∀ f ∈ m.fields, f.type ≠ x.name)
    {m : Model} (hm : m ∈ d.models) : d.AgreesOn (d.addModel x) (m.references .topLevel).names := by
  have hne : ∀ m ∈ d.models, ∀ f ∈ m.fields, Scalar.ofTag? f.type = none → f.type ≠ x.name := by
    intro m hm f hf hnone
    rcases h with hscalar | hfields
    · intro he
      rw [← he, hnone] at hscalar
      cases hscalar
    · exact hfields m hm f hf
  refine ⟨rfl, fun n hn => inlinable?_addModel ?_, fun n _ dependency hdep => List.filter_congr fun f hf => ?_⟩
  · rw [Model.names_references, List.mem_eraseDups, Model.keptFields_topLevel, mem_flatMap_references] at hn
    obtain ⟨hnone, f, hf, rfl⟩ := hn
    exact hne m hm f hf hnone
  · have hmem : dependency ∈ d.models := List.mem_of_find?_eq_some (inlinable?_eq_some.mp hdep).2
    rw [Placement.keeps_inlined, Placement.keeps_inlined, modelNames_addModel]
    cases hs : Scalar.ofTag? f.type with
    | some s => rfl
    | none => simp [hne dependency hmem f hf hs]

/-- One more model that no field refers to yields one more entity, after those of the other models. The entities of
    those and of the enums are what they are without it. -/
theorem generate_addModel (d : Document) (o : Options) (x : Model)
    (h : (Scalar.ofTag? x.name).isSome = true ∨ ∀ m ∈ d.models, ∀ f ∈ m.fields, f.type ≠ x.name) :
    let pass := (Generation.generateModels d o d.models).run 0
    d.generate o = pass.1 ++ d.enums.map (Generation.enumEntity o) ∧
      (d.addModel x).generate o = pass.1 ++
        ((Generation.generateModel (d.addModel x) o x).run pass.2).1 :: d.enums.map (Generation.enumEntity o) := by
  intro pass
  have hsame : Generation.generateModels (d.addModel x) o d.models = Generation.generateModels d o d.models :=
    Generation.generateModels_congr o fun m hm => (agreesOn_addModel h hm).resolveModel
  refine ⟨rfl, ?_⟩
  have hall := Generation.run_generateModels_append (d.addModel x) o d.models [x] 0
  rw [hsame] at hall
  show ((Generation.generateModels (d.addModel x) o (d.models ++ [x])).run 0).1 ++ _ = _
  rw [hall, List.append_assoc]
  rfl

theorem generate_addModel_comment :
    let user : Model := ⟨"User", [.new "posts" "Post", .new "role" "Role"]⟩
    let post : Model := ⟨"Post", [.new "author" "User", .new "reviewer" "Guest"]⟩
    let comment : Model := ⟨"Comment", [.new "post" "Post", .new "replies" "Comment"]⟩
    let d : Document := ⟨[user, post], [⟨"Role", [⟨"USER"⟩]⟩]⟩
    (∀ m ∈ d.models, ∀ f ∈ m.fields, f.type ≠ comment.name) ∧
      ∃ e, e.name = "Comment" ∧ e.unresolved = ["Guest"] ∧
        (d.addModel comment).generate {} = (d.generate {}).take 2 ++ e :: (d.generate {}).drop 2 := by
  intro user post comment d
  have hfields : ∀ m ∈ d.models, ∀ f ∈ m.fields, f.type ≠ comment.name := by decide
  obtain ⟨hall, hmore⟩ := generate_addModel d {} comment (Or.inr hfields)
  let last := ((Generation.generateModels d {} d.models).run 0).2
  refine ⟨hfields, ((Generation.generateModel (d.addModel comment) {} comment).run last).1, rfl, by decide, ?_⟩
  rw [hmore, hall]
  rfl

end Document

end SchemaForge
