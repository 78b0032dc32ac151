import SchemaForge.Emitter
import SchemaForge.Proofs.Text.Marker

/-! The mark of a placeholder in the text of a schema. What is written around the expressions holds single colons
    only, and an expression never meets its neighbours without a bracket, a space or a comma between them. So the text
    of a tree without colons in its names holds the mark exactly when the tree has a placeholder. -/

namespace SchemaForge
open Text

mutual

/-- No name in the tree has a colon, save those of placeholders. -/
def Expr.PlainNames : Expr → Prop
  | .scalar _ => True
  | .placeholder _ => True
  | .enumRef name => Plain name
  | .array item => item.PlainNames
  | .optional value => value.PlainNames
  | .object ⟨id, properties, _⟩ => Plain id ∧ Property.PlainNames properties

def Property.PlainNames : List Property → Prop
  | [] => True
  | ⟨name, value⟩ :: ps => Plain name ∧ value.PlainNames ∧ Property.PlainNames ps

end

theorem Property.plainNames_iff {ps : List Property} :
    Property.PlainNames ps ↔ ∀ p ∈ ps, Plain p.name ∧ p.expr.PlainNames := by
  induction ps with
  | nil => simp [PlainNames]
  | cons p ps ih =>
    obtain ⟨name, value⟩ := p
    simp only [PlainNames, ih, List.forall_mem_cons, and_assoc]

namespace Emitter
variable {e : Emitter}

theorem marked_placeholder (name : String) (depth : Nat) : Marked (e.expr (.placeholder name) depth) := by
  rw [Emitter.expr, String.append_assoc]
  exact ⟨[], (name ++ "::").toList, by simp⟩

theorem not_marked_objectOptions {id : String} (hid : Plain id) (additional : Bool) (depth : Nat) :
    ¬ Marked (e.objectOptions id additional depth) := by
  have hopen : "$id: '#" = "$id" ++ (": " ++ "'#") := by decide
  have hclose : "additionalProperties: " = "additionalProperties" ++ ": " := by decide
  -- The identifier and the flag are the members of an object, and each has its colon.
  have hmembers : e.objectOptions id additional depth =
      ("\x7b\n" ++ e.indent.text (depth + 1) ++ "$id") ++ ": " ++
        (("'#" ++ Literal.escape id ++ "',\n" ++ e.indent.text (depth + 1) ++ "additionalProperties") ++ ": " ++
          (toString additional ++ ",\n" ++ e.indent.text depth ++ "\x7d")) := by
    unfold objectOptions
    rw [hopen, hclose]
    simp only [String.append_assoc]
  have hfirst : Plain ("\x7b\n" ++ e.indent.text (depth + 1) ++ "$id") := by
    simp only [plain_append, plain_indent, and_true]
    decide
  have hsecond :
      Plain ("'#" ++ Literal.escape id ++ "',\n" ++ e.indent.text (depth + 1) ++ "additionalProperties") := by
    simp only [plain_append, plain_indent, plain_escape, hid, and_true]
    decide
  have hthird : Plain (toString additional ++ ",\n" ++ e.indent.text depth ++ "\x7d") := by
    simp only [plain_append, plain_indent, plain_toString_bool, true_and, and_true]
    decide
  rw [hmembers, marked_member hfirst, marked_member hsecond]
  exact not_marked hthird

theorem marked_object {id : String} (hid : Plain id) (ps : List Property) (additional : Bool) (depth : Nat) :
    Marked (e.expr (.object ⟨id, ps, additional⟩) depth) ↔ Marked (e.propertyLines ps (depth + 1)) := by
  have hblock : Marked (e.propertyBlock ps depth) ↔ Marked (e.propertyLines ps (depth + 1)) := by
    cases ps with
    | nil =>
      rw [propertyBlock, propertyLines]
      exact iff_of_false (not_marked (by decide)) (not_marked (by decide))
    | cons p ps =>
      rw [propertyBlock, marked_append_right (by decide), marked_append_right (plain_indent _ _),
        marked_append_left (by decide)]
  rw [Emitter.expr, marked_append_right (by decide), marked_between (by decide) (by decide),
    or_iff_left (not_marked_objectOptions hid additional depth), marked_append_left (by decide), hblock]

theorem marked_propertyLines_cons {name : String} (hname : Plain name) (value : Expr) (ps : List Property)
    (depth : Nat) : Marked (e.propertyLines (⟨name, value⟩ :: ps) depth) ↔
      Marked (e.expr value depth) ∨ Marked (e.propertyLines ps depth) := by
  have hmember : Plain (e.indent.text depth ++ name) := plain_append.mpr ⟨plain_indent _ _, hname⟩
  rw [propertyLines, marked_between (by decide) (by decide), marked_member hmember]

mutual

/-- The text of an expression is marked exactly when a placeholder occurs in it. -/
theorem marked_expr (he : ∀ s, ¬ Marked (e.typeMap.expression s)) (depth : Nat) :
    ∀ x : Expr, x.PlainNames → (Marked (e.expr x depth) ↔ x.occurrences ≠ [])
  | .scalar s, _ => by
    rw [Emitter.expr, Expr.occurrences]
    exact iff_of_false (he s) (fun h => h rfl)
  | .placeholder name, _ => iff_of_true (marked_placeholder name depth) (List.cons_ne_nil name [])
  | .enumRef name, hx => by
    rw [Emitter.expr, Expr.occurrences]
    exact iff_of_false (not_marked hx) (fun h => h rfl)
  | .array item, hx => by
    rw [Emitter.expr, Expr.occurrences, marked_append_right (by decide), marked_append_left (by decide),
      marked_expr he depth item hx]
  | .optional value, hx => by
    rw [Emitter.expr, Expr.occurrences, marked_append_right (by decide), marked_append_left (by decide),
      marked_expr he depth value hx]
  | .object ⟨id, ps, additional⟩, hx => by
    obtain ⟨hid, hps⟩ := hx
    rw [marked_object hid, Expr.occurrences, marked_propertyLines he (depth + 1) ps hps]

theorem marked_propertyLines (he : ∀ s, ¬ Marked (e.typeMap.expression s)) (depth : Nat) :
    ∀ ps : List Property, Property.PlainNames ps →
      (Marked (e.propertyLines ps depth) ↔ Property.occurrences ps ≠ [])
  | [], _ => by
    rw [propertyLines, Property.occurrences]
    exact iff_of_false (not_marked (by decide)) (fun h => h rfl)
  | ⟨name, value⟩ :: ps, hps => by
    obtain ⟨hname, hvalue, hps⟩ := hps
    rw [marked_propertyLines_cons hname, marked_expr he depth value hvalue, marked_propertyLines he depth ps hps,
      Property.occurrences, ← Classical.not_and_iff_not_or_not, ← List.append_eq_nil_iff]

end

/-- The built-in expressions are not marked, so overrides that are not give a type map that is not. -/
theorem not_marked_expression {m : TypeMap} (h : ∀ p ∈ m.overrides, ¬ Marked p.2) (s : Scalar) :
    ¬ Marked (m.expression s) := by
  have hbuiltin : ∀ s : Scalar, ¬ Marked s.builtin := by
    intro s
    cases s <;> decide +kernel
  exact TypeMap.expression_of_forall (P := fun text => ¬ Marked text) h hbuiltin s

end Emitter

end SchemaForge
