import SchemaForge.Fragment
import SchemaForge.Proofs.Text.Suffix

/-! The identifiers that the variants give to models. A name that ends in a number is never one that ends in
    the mark of input, so the identifier of an inlined model determines its variant, its name and its number. -/

namespace SchemaForge

namespace Variant
variable {a b : String}

/-- An inlined model has the identifier of a model that is named after it and its number. -/
theorem dependencyId_eq (v : Variant) (name : String) (number : Nat) :
    v.dependencyId name number = v.modelId (name ++ "_dep_" ++ toString number) := rfl

theorem modelId_inj {v : Variant} : v.modelId a = v.modelId b ↔ a = b := by
  rw [modelId, modelId, String.append_left_inj, String.append_left_inj]

theorem canonical_modelId_eq_input : canonical.modelId a = input.modelId b ↔ a = b ++ "_input" := by
  have hcanonical : canonical.modelId a = a ++ "_model" := String.append_assoc
  have hinput : input.modelId b = b ++ "_input" ++ "_model" := by
    have hsplit : "_" ++ "input_model" = "_input" ++ "_model" := rfl
    rw [modelId, String.append_assoc, idSuffix, hsplit, String.append_assoc]
  rw [hcanonical, hinput, String.append_left_inj]

/-- A name with a number is never one with the mark of input. -/
theorem numbered_ne_input (number : Nat) : a ++ toString number ≠ b ++ "_input" := by
  obtain ⟨c, hlast, hdigit⟩ := Text.getLast?_numbered (a := a) number
  intro h
  rw [h, String.toList_append, List.getLast?_append] at hlast
  cases hlast
  exact absurd hdigit (by decide)

theorem dependencyId_inj {v w : Variant} {i j : Nat} (h : v.dependencyId a i = w.dependencyId b j) :
    v = w ∧ a = b ∧ i = j := by
  have hsame : ∀ {u : Variant}, u.dependencyId a i = u.dependencyId b j → a = b ∧ i = j := by
    intro u hu
    have hsplit : "_dep_" = "_dep" ++ "_" := rfl
    rw [dependencyId_eq, dependencyId_eq, modelId_inj, hsplit, ← String.append_assoc, ← String.append_assoc] at hu
    obtain ⟨hname, hnumber⟩ := Text.numbered_inj hu
    exact ⟨(String.append_left_inj _).mp hname, hnumber⟩
  cases v <;> cases w
  · exact ⟨rfl, hsame h⟩
  · exact absurd (canonical_modelId_eq_input.mp h) (numbered_ne_input i)
  · exact absurd (canonical_modelId_eq_input.mp h.symm) (numbered_ne_input j)
  · exact ⟨rfl, hsame h⟩

end Variant

end SchemaForge
