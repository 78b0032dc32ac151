import SchemaForge.Proofs.Emitter.Unambiguous

/-! The depth of a text. A line feed in the text of a schema comes from the emitter alone, as identifiers are escaped,
    and the emitter indents every line to its depth. So a text some levels further in is the same text with those
    levels after every line feed. -/

namespace SchemaForge
namespace Emitter
open Text
variable {e : Emitter} {n : Nat}

section
variable {lead : String}

theorem indented_open : indented lead "\x7b\n" = "\x7b\n" ++ lead :=
  indented_of_line (a := "\x7b") (by decide) (by decide)

theorem indented_comma : indented lead ",\n" = ",\n" ++ lead :=
  indented_of_line (a := ",") (by decide) (by decide)

theorem indented_quote : indented lead "',\n" = "',\n" ++ lead :=
  indented_of_line (a := "',") (by decide) (by decide)

end

theorem objectOptions_add (id : String) (additional : Bool) (depth : Nat) :
    e.objectOptions id additional (n + depth) = indented (e.indent.text n) (e.objectOptions id additional depth) := by
  have hflag : OneLine (toString additional) := by cases additional <;> decide
  have hid : OneLine "$id: '#" := by decide
  have hadditional : OneLine "additionalProperties: " := by decide
  have hbrace : OneLine "\x7d" := by decide
  simp only [objectOptions_eq, indented_append, indented_open, indented_comma, indented_quote,
    indented_of_oneLine (oneLine_indent _ _), indented_of_oneLine (oneLine_escape id), indented_of_oneLine hflag,
    indented_of_oneLine hid, indented_of_oneLine hadditional, indented_of_oneLine hbrace, Nat.add_assoc n,
    e.indent.text_add _ n, String.append_assoc]

/-- The lines of properties start with their own indentation. What has to stand before the first of them comes after
    the last one, where the brace is further in by as much. -/
theorem propertyBlock_add_of_lines {ps : List Property} {depth : Nat}
    (h : e.propertyLines ps (n + (depth + 1)) ++ e.indent.text n =
      e.indent.text n ++ indented (e.indent.text n) (e.propertyLines ps (depth + 1))) :
    e.propertyBlock ps (n + depth) = indented (e.indent.text n) (e.propertyBlock ps depth) := by
  cases ps with
  | nil => rw [propertyBlock, propertyBlock, indented_of_oneLine (by decide)]
  | cons p ps =>
    have hbrace : OneLine "\x7d" := by decide
    calc e.propertyBlock (p :: ps) (n + depth)
        = "\x7b\n" ++ (e.propertyLines (p :: ps) (n + (depth + 1)) ++ e.indent.text n) ++ e.indent.text depth ++
            "\x7d" := by
          rw [propertyBlock, e.indent.text_add]
          simp only [String.append_assoc, Nat.add_assoc]
      _ = "\x7b\n" ++ (e.indent.text n ++ indented (e.indent.text n) (e.propertyLines (p :: ps) (depth + 1))) ++
            e.indent.text depth ++ "\x7d" := by rw [h]
      _ = indented (e.indent.text n) (e.propertyBlock (p :: ps) depth) := by
          rw [propertyBlock]
          simp only [indented_append, indented_open, indented_of_oneLine (oneLine_indent _ _),
            indented_of_oneLine hbrace, String.append_assoc]

mutual

-- By induction on the tree, for every depth. An object's properties stand one level further in than the object.
theorem expr_add (he : ∀ s, OneLine (e.typeMap.expression s)) : ∀ (x : Expr) (depth : Nat),
    (∀ name ∈ x.names, OneLine name) → e.expr x (n + depth) = indented (e.indent.text n) (e.expr x depth)
  | .scalar s, _, _ => by
    rw [Emitter.expr, Emitter.expr, indented_of_oneLine (he s)]
  | .placeholder name, _, hx => by
    have hmark : OneLine ("::" ++ name ++ "::") := by
      simp only [oneLine_append]
      exact ⟨⟨by decide, hx name List.mem_cons_self⟩, by decide⟩
    rw [Emitter.expr, Emitter.expr, indented_of_oneLine hmark]
  | .enumRef name, _, hx => by
    rw [Emitter.expr, Emitter.expr, indented_of_oneLine (hx name List.mem_cons_self)]
  | .array item, depth, hx => by
    have hopen : OneLine "Type.Array(" := by decide
    have hclose : OneLine ")" := by decide
    rw [Emitter.expr, Emitter.expr, indented_append, indented_append, indented_of_oneLine hopen,
      indented_of_oneLine hclose, expr_add he item depth hx]
  | .optional value, depth, hx => by
    have hopen : OneLine "Type.Optional(" := by decide
    have hclose : OneLine ")" := by decide
    rw [Emitter.expr, Emitter.expr, indented_append, indented_append, indented_of_oneLine hopen,
      indented_of_oneLine hclose, expr_add he value depth hx]
  | .object ⟨id, ps, additional⟩, depth, hx => by
    have hopen : OneLine "Type.Object(" := by decide
    have hcomma : OneLine ", " := by decide
    have hclose : OneLine ")" := by decide
    have hblock := propertyBlock_add_of_lines (propertyLines_add he ps (depth + 1) hx)
    rw [Emitter.expr, Emitter.expr, hblock, objectOptions_add]
    simp only [indented_append, indented_of_oneLine hopen, indented_of_oneLine hcomma, indented_of_oneLine hclose]

theorem propertyLines_add (he : ∀ s, OneLine (e.typeMap.expression s)) : ∀ (ps : List Property) (depth : Nat),
    (∀ name ∈ Property.names ps, OneLine name) → e.propertyLines ps (n + depth) ++ e.indent.text n =
      e.indent.text n ++ indented (e.indent.text n) (e.propertyLines ps depth)
  | [], _, _ => by
    rw [propertyLines, propertyLines, indented_of_oneLine (by decide), String.empty_append, String.append_empty]
  | ⟨name, x⟩ :: ps, depth, hps => by
    obtain ⟨hname, hnames⟩ := List.forall_mem_cons.mp hps
    obtain ⟨hx, hrest⟩ := List.forall_mem_append.mp hnames
    have hcolon : OneLine ": " := by decide
    rw [propertyLines, propertyLines, expr_add he x depth hx, e.indent.text_add]
    simp only [indented_append, indented_comma, indented_of_oneLine (oneLine_indent _ _), indented_of_oneLine hname,
      indented_of_oneLine hcolon, String.append_assoc, propertyLines_add he ps depth hrest]

end

/-- Where overrides and names hold no line feed, the text of an expression or an object at a depth is its text at
    depth 0, with that many units of indentation after every line feed. -/
theorem text_at_depth (he : ∀ p ∈ e.typeMap.overrides, OneLine p.2) (depth : Nat) :
    let lead := String.join (List.replicate depth e.indent.unit)
    (∀ x : Expr, (∀ name ∈ x.names, OneLine name) → e.expr x depth = indented lead (e.expr x 0)) ∧
      ∀ o : ObjectSchema, (∀ name ∈ o.names, OneLine name) → e.object o depth = indented lead (e.object o 0) := by
  intro lead
  have hbuiltin : ∀ s : Scalar, OneLine s.builtin := by
    intro s
    cases s <;> decide +kernel
  have hlead : lead = e.indent.text depth := (e.indent.text_eq_join depth).symm
  have hexpr : ∀ x : Expr, (∀ name ∈ x.names, OneLine name) → e.expr x depth = indented lead (e.expr x 0) := by
    intro x hx
    rw [hlead]
    exact expr_add (TypeMap.expression_of_forall he hbuiltin) x 0 hx
  refine ⟨hexpr, fun o ho => hexpr (.object o) ?_⟩
  rwa [Expr.names_object]

/-- The line feed in an identifier is escaped, so no line of the text ends there. -/
theorem text_at_depth_author :
    let e : Emitter := { typeMap := ⟨[("DateTime", "Type.Date()")]⟩, indent := .spaces2 }
    let author : ObjectSchema := ⟨"User\nmodel", [⟨"born", .scalar .dateTime⟩, ⟨"role", .enumRef "Role"⟩], false⟩
    let o : ObjectSchema := ⟨"Post_model", [⟨"authors", .optional (.array (.object author))⟩], true⟩
    (∀ p ∈ e.typeMap.overrides, OneLine p.2) ∧ (∀ name ∈ o.names, OneLine name) ∧
      e.object o 2 = indented "    " (e.object o 0) ∧
      e.expr (.object author) 1 = indented "  " (e.expr (.object author) 0) := by
  intro e author o
  have he : ∀ p ∈ e.typeMap.overrides, OneLine p.2 := by decide
  have ho : ∀ name ∈ o.names, OneLine name := by decide
  have hauthor : ∀ name ∈ (Expr.object author).names, OneLine name := by decide
  exact ⟨he, ho, (text_at_depth he 2).2 o ho, (text_at_depth he 1).1 (.object author) hauthor⟩

end Emitter

end SchemaForge
