import Mathlib.Data.List.Nodup
import SchemaForge.Generation
import SchemaForge.Proofs.Resolution.Names

/-! A generation pass model by model. Each model is resolved from the number that the models before it
    left, and takes one number for itself and one for each model that it inlines, so the numbers of
    different models lie apart and grow along the pass. -/

namespace SchemaForge

namespace Document

def numbersTaken (d : Document) (m : Model) : Nat := 1 + (d.inlinedNames m).length

theorem run_resolveModel_snd (d : Document) (m : Model) (last : Nat) :
    ((d.resolveModel m).run last).2 = last + d.numbersTaken m := by
  rw [run_resolveModel, run_resolve (occurrences_input_sub_canonical m (last + 1)), dependencies_references,
    numbersTaken, Nat.add_assoc]

/-- The models of a list, each with the number that was handed out before it. -/
def placed (d : Document) : List Model → Nat → List (Model × Nat)
  | [], _ => []
  | m :: ms, last => (m, last) :: d.placed ms (last + d.numbersTaken m)

theorem map_fst_placed (d : Document) : ∀ (ms : List Model) (last : Nat), (d.placed ms last).map Prod.fst = ms
  | [], _ => rfl
  | m :: ms, last => by rw [placed, List.map_cons, map_fst_placed d ms]

theorem le_of_mem_placed {d : Document} : ∀ {ms : List Model} {last : Nat} {p : Model × Nat},
    p ∈ d.placed ms last → last ≤ p.2
  | _ :: _, last, p, h => by
    rcases List.mem_cons.mp h with rfl | h
    · exact Nat.le_refl last
    · have := le_of_mem_placed h
      omega

/-- The numbers of a model lie below those of the models after it. -/
theorem pairwise_placed (d : Document) : ∀ (ms : List Model) (last : Nat),
    (d.placed ms last).Pairwise fun p q => p.2 + d.numbersTaken p.1 ≤ q.2
  | [], _ => List.Pairwise.nil
  | _ :: ms, _ => List.Pairwise.cons (fun _ hq => le_of_mem_placed hq) (pairwise_placed d ms _)

/-- The models of a document, each with the number that was handed out before it. -/
def placedModels (d : Document) : List (Model × Nat) := d.placed d.models 0

def resolvedModel (d : Document) (p : Model × Nat) : Resolved := ((d.resolveModel p.1).run p.2).1

theorem nodup_enumImports (d : Document) (p : Model × Nat) : (d.resolvedModel p).enumImports.Nodup := by
  rw [resolvedModel, enumImports_resolveModel]
  exact References.nodup_eraseDups _

theorem enumImports_sub {d : Document} {p : Model × Nat} {n : String} (hn : n ∈ (d.resolvedModel p).enumImports) :
    n ∈ d.enumNames := ((mem_enumImports_iff p.2).mp hn).2.1

theorem mem_models_of_placed {d : Document} {p : Model × Nat} (h : p ∈ d.placedModels) : p.1 ∈ d.models := by
  rw [← map_fst_placed d d.models 0]
  exact List.mem_map_of_mem h

/-- Numbers that two places of the pass hand out are different. -/
theorem placed_eq_of_number {d : Document} {p q : Model × Nat} (hp : p ∈ d.placedModels) (hq : q ∈ d.placedModels)
    {i j : Nat} (hi : i < d.numbersTaken p.1) (hj : j < d.numbersTaken q.1) (h : p.2 + i = q.2 + j) : p = q := by
  have hapart := pairwise_placed d d.models 0
  have hall := List.Pairwise.forall_of_forall_of_flip
    (R := fun p q => ∀ i j, i < d.numbersTaken p.1 → j < d.numbersTaken q.1 → p.2 + i = q.2 + j → p = q)
    (fun _ _ _ _ _ _ _ => rfl) (hapart.imp fun hle i j hi hj he => by omega)
    (hapart.imp fun hle i j hi hj he => by omega)
  exact hall hp hq i j hi hj h

end Document

/-- The entity of a resolved model with these files. -/
def Resolved.entity (r : Resolved) (model : String) (files : Variant → String) : Entity :=
  ⟨model, .model, files .canonical, some (files .input), r.enumImports, r.unresolved⟩

namespace Generation
variable {d : Document} {o : Options}

theorem modelEntity_eq (o : Options) (m : Model) (r : Resolved) : modelEntity o m r = r.entity m.name fun v =>
    (Emitter.ofOptions o).modelFile m.name v (r.schema v) (o.importLines r.enumImports) := rfl

theorem run_generateModels : ∀ (ms : List Model) (last : Nat), ((generateModels d o ms).run last).1 =
    (d.placed ms last).map fun p => modelEntity o p.1 (d.resolvedModel p)
  | [], _ => rfl
  | m :: ms, last => by
    have hrest := run_generateModels ms (last + d.numbersTaken m)
    rw [← Document.run_resolveModel_snd] at hrest
    rw [Document.placed, List.map_cons, ← Document.run_resolveModel_snd, ← hrest]
    rfl

end Generation

/-- A pass yields the entities of the models, each resolved at its place, and then those of the enums. -/
theorem Document.generate_eq (d : Document) (o : Options) : d.generate o =
    d.placedModels.map (fun p => Generation.modelEntity o p.1 (d.resolvedModel p)) ++
      d.enums.map (Generation.enumEntity o) := by
  rw [Document.generate, Generation.run_generateModels]
  rfl

end SchemaForge
