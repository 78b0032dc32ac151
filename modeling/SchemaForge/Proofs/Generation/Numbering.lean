import SchemaForge.Proofs.Generation.Identifiers
import SchemaForge.Proofs.Resolution.Names

/-! The numbers of a generation pass in closed form. A model is resolved from the number of the models before it
    and of all that were inlined into those, takes the next number, and its inlined models the numbers after
    that, in their order. So the numbers of the inlining steps grow along the pass, and no two of their
    identifiers agree. -/

namespace SchemaForge

namespace Document

/-- The names that are inlined into the first `i` models of a document, one for each step. -/
def inlinedBefore (d : Document) (i : Nat) : List String := (d.models.take i).flatMap d.inlinedNames

/-- The steps of a pass in which a model is inlined, in their order: its name and its number. -/
def inliningSteps (d : Document) : List (String × Nat) :=
  (d.models.mapIdx fun i m => (d.inlinedNames m).mapIdx fun k name =>
    (name, i + 1 + (d.inlinedBefore i).length + (k + 1))).flatten

/-! ### The models at their places -/

theorem placed_eq_mapIdx (d : Document) : ∀ (ms : List Model) (last : Nat), d.placed ms last =
    ms.mapIdx fun i m => (m, last + (i + ((ms.take i).flatMap d.inlinedNames).length))
  | [], _ => rfl
  | m :: ms, last => by
    rw [placed, placed_eq_mapIdx d ms, List.mapIdx_cons, List.take_zero, List.flatMap_nil]
    congr 1
    refine List.ext_getElem (by simp) fun i _ _ => ?_
    simp only [List.getElem_mapIdx, List.take_succ_cons, List.flatMap_cons, List.length_append, numbersTaken]
    congr 1
    omega

theorem map_placedModels {β : Type} (d : Document) (f : Model × Nat → β) :
    d.placedModels.map f = d.models.mapIdx fun i m => f (m, i + (d.inlinedBefore i).length) := by
  rw [placedModels, placed_eq_mapIdx]
  refine List.ext_getElem (by simp) fun i _ _ => ?_
  simp only [List.getElem_map, List.getElem_mapIdx, Nat.zero_add, inlinedBefore]

/-- The entity of a model in a pass is rendered from what the model by itself is resolved to, from the number at its
    place. -/
theorem generate_eq_mapIdx (d : Document) (o : Options) : d.generate o =
    d.models.mapIdx (fun i m =>
        Generation.modelEntity o m ((d.resolveModel m).run (i + (d.inlinedBefore i).length)).1) ++
      d.enums.map (Generation.enumEntity o) := by
  rw [generate_eq, map_placedModels]
  rfl

/-! ### The numbers in the trees -/

theorem inlinedNames_eq (d : Document) (m : Model) :
    d.inlinedNames m = ((m.fields.map (·.type)).filter (· ∈ d.inlinedNames m)).eraseDups := by
  conv => lhs; rw [inlinedNames, Model.referencedNames, ← References.eraseDups_filter, List.filter_filter]
  congr 1
  refine List.filter_congr fun t ht => ?_
  obtain ⟨f, hf, rfl⟩ := List.mem_map.mp ht
  rw [Bool.eq_iff_iff]
  simp only [decide_eq_true_eq, mem_inlinedNames hf, Bool.and_eq_true, Option.isNone_iff_eq_none]
  exact and_comm

theorem nodup_inlinedNames (d : Document) (m : Model) : (d.inlinedNames m).Nodup :=
  (References.nodup_eraseDups _).filter _

theorem map_idxOf_eq_mapIdx {β : Type} {names : List String} (h : names.Nodup) (g : Nat → String → β) :
    (names.map fun name => g (names.idxOf name) name) = names.mapIdx g := by
  refine List.ext_getElem (by simp) fun k hk _ => ?_
  rw [List.getElem_map, List.getElem_mapIdx, h.idxOf_getElem]

/-- The objects inside a model's tree, each at its first place, are the inlined models, numbered in their order. -/
theorem ids_inlined (d : Document) (m : Model) (last : Nat) (v : Variant) :
    (((d.resolveModel m).run last).1.schema v).ids.tail.eraseDups =
      (d.inlinedNames m).mapIdx fun k name => v.dependencyId name (last + 1 + (k + 1)) := by
  -- Every field of an inlined type has the object of that type, whose number is the place of the type.
  let id := fun name => v.dependencyId name (last + 1 + ((d.inlinedNames m).idxOf name + 1))
  have hfields : ∀ fields : List Field, (fields.flatMap fun f => if f.type ∈ d.inlinedNames m then
      [SchemaSource.inlined m.name f.type (last + 1 + ((d.inlinedNames m).idxOf f.type + 1)) v] else []).map (·.id) =
      ((fields.map (·.type)).filter (· ∈ d.inlinedNames m)).map id := by
    intro fields
    induction fields with
    | nil => rfl
    | cons f fields ih =>
      rw [List.flatMap_cons, List.map_append, ih, List.map_cons]
      by_cases h : f.type ∈ d.inlinedNames m
      · simp only [h, if_true, decide_true, List.filter_cons_of_pos]
        rfl
      · simp only [h, if_false, decide_false, Bool.false_eq_true, not_false_eq_true, List.filter_cons_of_neg]
        rfl
  have hids : (((d.resolveModel m).run last).1.schema v).ids.tail =
      ((m.fields.map (·.type)).filter (· ∈ d.inlinedNames m)).map id := by
    have hall : (((d.resolveModel m).run last).1.schema v).ids = (d.variantSources (m, last) v).map (·.id) :=
      d.ids_resolvedModel (m, last) v
    rw [hall, variantSources, List.map_cons, List.tail_cons, hfields]
  rw [hids, References.eraseDups_map fun a b h => (Variant.dependencyId_inj h).2.1, ← inlinedNames_eq]
  exact map_idxOf_eq_mapIdx (nodup_inlinedNames d m) fun k name => v.dependencyId name (last + 1 + (k + 1))

/-! ### The numbers of the pass -/

theorem inliningSteps_eq (d : Document) : d.inliningSteps = d.placedModels.flatMap fun p =>
    (d.inlinedNames p.1).mapIdx fun k name => (name, p.2 + 1 + (k + 1)) := by
  rw [List.flatMap_def, map_placedModels, inliningSteps]
  simp only [Nat.add_right_comm _ 1]

theorem pairwise_inliningSteps (d : Document) : d.inliningSteps.Pairwise fun s t => s.2 < t.2 := by
  rw [inliningSteps_eq, List.pairwise_flatMap]
  constructor
  · intro p _
    rw [List.pairwise_iff_getElem]
    intro k l hk hl hkl
    simp only [List.getElem_mapIdx]
    omega
  · refine (pairwise_placed d d.models 0).imp ?_
    intro p q hpq s hs t ht
    obtain ⟨k, hk, rfl⟩ := List.mem_mapIdx.mp hs
    obtain ⟨l, hl, rfl⟩ := List.mem_mapIdx.mp ht
    rw [numbersTaken] at hpq
    show p.2 + 1 + (k + 1) < q.2 + 1 + (l + 1)
    omega

theorem nodup_stepIds (d : Document) : (d.inliningSteps.flatMap fun s =>
    [Variant.canonical.dependencyId s.1 s.2, Variant.input.dependencyId s.1 s.2]).Nodup := by
  refine List.pairwise_flatMap.mpr ⟨fun s _ => ?_, (pairwise_inliningSteps d).imp ?_⟩
  · -- The two variants of one step.
    rw [List.pairwise_pair]
    intro h
    cases (Variant.dependencyId_inj h).1
  · intro s t hst x hx y hy hxy
    have hnumber : s.2 = t.2 := by
      simp only [List.mem_cons, List.not_mem_nil, or_false] at hx hy
      rcases hx with rfl | rfl <;> rcases hy with rfl | rfl <;> exact (Variant.dependencyId_inj hxy).2.2
    omega

end Document

/-- A pass resolves every model by itself from the number at its place and renders what it is resolved to, whose
    inlined models are numbered on from there. The numbers of all inlining steps grow, and an identifier determines
    the step and the variant. -/
theorem Document.generate_numbering (d : Document) (o : Options) :
    d.generate o = d.models.mapIdx (fun i m =>
        Generation.modelEntity o m ((d.resolveModel m).run (i + (d.inlinedBefore i).length)).1) ++
      d.enums.map (Generation.enumEntity o) ∧
    (∀ (i : Nat) (hi : i < d.models.length),
      let r := ((d.resolveModel d.models[i]).run (i + (d.inlinedBefore i).length)).1
      r.inlined = d.inlinedNames d.models[i] ∧ ∀ v, (r.schema v).ids.tail.eraseDups =
        r.inlined.mapIdx fun k name => v.dependencyId name (i + 1 + (d.inlinedBefore i).length + (k + 1))) ∧
    (d.inliningSteps.map (·.2)).Pairwise (· < ·) ∧
    (∀ (v w : Variant) (a b : String) (j k : Nat),
      v.dependencyId a j = w.dependencyId b k ↔ v = w ∧ a = b ∧ j = k) ∧
    (d.inliningSteps.flatMap fun s =>
      [Variant.canonical.dependencyId s.1 s.2, Variant.input.dependencyId s.1 s.2]).Nodup := by
  refine ⟨d.generate_eq_mapIdx o, fun i hi => ?_, ?_, fun v w a b j k => ⟨Variant.dependencyId_inj, ?_⟩,
    d.nodup_stepIds⟩
  · intro r
    have hinlined : r.inlined = d.inlinedNames d.models[i] := d.inlined_resolveModel _ _
    refine ⟨hinlined, fun v => ?_⟩
    rw [hinlined, ids_inlined, Nat.add_right_comm i]
  · exact List.pairwise_map.mpr d.pairwise_inliningSteps
  · rintro ⟨rfl, rfl, rfl⟩
    rfl

theorem Document.generate_numbering_blog :
    let post : Model := ⟨"Post", [.new "author" "User", .new "tags" "Tag"]⟩
    let user : Model := ⟨"User", [.new "posts" "Post", .new "team" "Team"]⟩
    let d : Document := ⟨[post, user, ⟨"Tag", []⟩, ⟨"Team", []⟩], []⟩
    let r := ((d.resolveModel user).run 3).1
    1 < d.models.length ∧ d.inlinedBefore 1 = ["User", "Tag"] ∧ r.inlined = ["Post", "Team"] ∧
      r.input.ids.tail.eraseDups = ["Post_dep_5_input_model", "Team_dep_6_input_model"] := by
  intro post user d r
  obtain ⟨hinlined, hids⟩ := (generate_numbering d {}).2.1 1 (by decide)
  refine ⟨by decide, by decide, hinlined, ?_⟩
  exact (hids .input).trans (by decide)

end SchemaForge
