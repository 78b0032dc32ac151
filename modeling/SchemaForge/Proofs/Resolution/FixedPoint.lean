import SchemaForge.Proofs.Fragment
import SchemaForge.Proofs.Resolution.Names

/-! A resolution leaves nothing to resolve. What takes the place of a name refers to no model, as an inlined object
    drops those references, and to no enum, as the enums are linked last. So the placeholders that stay name nothing
    that the document declares, and a further resolution passes over all of them. -/

namespace SchemaForge

/-- Every placeholder of the input schema occurs in the canonical one, and every placeholder of that is among the
    references. -/
structure Fragment.Covered (f : Fragment) : Prop where
  input : ∀ n ∈ f.input.placeholders.names, n ∈ f.canonical.placeholders.names
  canonical : ∀ n ∈ f.canonical.placeholders.names, n ∈ f.references.names

namespace Document
variable {d : Document} {n : String}

/-- The name is none of a model or of an enum. -/
def Undeclared (d : Document) (n : String) : Prop := n ∉ d.modelNames ∧ n ∉ d.enumNames

namespace Undeclared

theorem enum? (h : d.Undeclared n) : d.enum? n = none := enum?_eq_none.mpr h.2

theorem inlinable? (h : d.Undeclared n) : d.inlinable? n = none := inlinable?_of_not_mem h.1

theorem resolvedAt (h : d.Undeclared n) (v : Variant) (names : List String) (last : Nat) :
    d.resolvedAt v names last n = .placeholder n := by
  rw [Document.resolvedAt, inlinedAt_of_none h.inlinable?, Expr.bind, linked, h.enum?]
  rfl

end Undeclared

/-- What a resolution puts in the place of a referenced name holds no declared name. -/
theorem undeclared_of_resolvedAt {v : Variant} {names : List String} {last : Nat} (hn : n ∈ names) :
    ∀ x ∈ (d.resolvedAt v names last n).occurrences, d.Undeclared x := by
  intro x hx
  rw [resolvedAt, Expr.occurrences_bind, (flatMap_linked _).2, List.mem_filter, decide_eq_true_eq] at hx
  obtain ⟨hoccurs, henum⟩ := hx
  cases h : d.inlinable? n with
  | none =>
    rw [inlinedAt_of_none h, Expr.occurrences, List.mem_singleton] at hoccurs
    subst hoccurs
    exact ⟨fun hmodel => henum (inlinable?_eq_none.mp h hmodel), henum⟩
  | some m =>
    rw [inlinedAt_of_some h hn, Expr.occurrences_object] at hoccurs
    exact ⟨Model.not_mem_of_inlined hoccurs, henum⟩

theorem undeclared_of_bind {o : ObjectSchema} {v : Variant} {names : List String} {last : Nat}
    (ho : ∀ n ∈ o.occurrences, n ∈ names) :
    ∀ n ∈ (o.bind (d.resolvedAt v names last)).occurrences, d.Undeclared n := by
  intro n hn
  rw [ObjectSchema.occurrences_bind, List.mem_flatMap] at hn
  obtain ⟨name, hname, hn⟩ := hn
  exact undeclared_of_resolvedAt (ho name hname) n hn

theorem occurrences_resolvedAt (d : Document) (v v' : Variant) (names : List String) (last : Nat) (n : String) :
    (d.resolvedAt v names last n).occurrences = (d.resolvedAt v' names last n).occurrences := by
  rw [resolvedAt, resolvedAt, Expr.occurrences_bind, Expr.occurrences_bind, occurrences_inlinedAt v v']

/-- Resolving what refers to nothing that is declared changes nothing, and takes no number. -/
theorem run_resolve_of_undeclared {f : Fragment} (hinput : ∀ n ∈ f.input.occurrences, n ∈ f.canonical.occurrences)
    (hcanonical : ∀ n ∈ f.canonical.occurrences, d.Undeclared n)
    (hrefs : ∀ n ∈ f.references.names, d.Undeclared n) (last : Nat) :
    (d.resolve f).run last = (⟨f.canonical, f.input, [], [], f.canonical.placeholders.names⟩, last) := by
  have hkeeps : ∀ (v : Variant) {o : ObjectSchema}, (∀ n ∈ o.occurrences, n ∈ f.canonical.occurrences) →
      o.bind (d.resolvedAt v f.references.names last) = o := fun v o ho =>
    ObjectSchema.bind_eq_self fun n hn => (hcanonical n (ho n hn)).resolvedAt v _ last
  have hleft : f.canonical.bind (d.inlinedAt .canonical f.references.names last) = f.canonical :=
    ObjectSchema.bind_eq_self fun n hn => inlinedAt_of_none (hcanonical n hn).inlinable?
  have hdependencies : d.dependencies f.references.names = [] :=
    List.filter_eq_nil_iff.mpr fun n hn => by simp [(hrefs n hn).inlinable?]
  have hnone : ∀ n ∈ f.canonical.placeholders.names, d.enum? n = none := fun n hn =>
    (hcanonical n (ObjectSchema.mem_placeholders.mp hn)).enum?
  have himports : f.canonical.placeholders.names.filter (fun n => (d.enum? n).isSome) = [] :=
    List.filter_eq_nil_iff.mpr fun n hn => by simp [hnone n hn]
  have hunresolved : f.canonical.placeholders.names.filter (fun n => (d.enum? n).isNone) =
      f.canonical.placeholders.names :=
    List.filter_eq_self.mpr fun n hn => by simp [hnone n hn]
  simp only [run_resolve hinput, hkeeps .canonical fun n hn => hn, hkeeps .input hinput, hleft, hdependencies,
    himports, hunresolved, List.length_nil, Nat.add_zero]

/-- Linking the enums leaves the placeholders that name none. -/
theorem names_placeholders_linked (d : Document) (o : ObjectSchema) :
    (o.bind d.linked).placeholders.names = o.placeholders.names.filter fun n => (d.enum? n).isNone := by
  rw [ObjectSchema.names_placeholders, ObjectSchema.names_placeholders, ObjectSchema.occurrences_bind,
    (flatMap_linked _).2, References.eraseDups_filter]
  exact List.filter_congr fun n _ => enum?_isNone.symm

end Document

/-- The references of a model's fragment cover it, in any place and under any number. -/
theorem Model.covered_fragment (m : Model) (place : Placement) (last : Nat) :
    ((m.fragment place).run last).1.Covered where
  input n hn := by
    show n ∈ (m.schema place .canonical (last + 1)).placeholders.names
    rw [placeholders_schema, ← m.placeholders_schema place .input (last + 1)]
    exact hn
  canonical n hn := by
    show n ∈ (m.references place).names
    rw [← m.placeholders_schema place .canonical (last + 1)]
    exact hn

namespace Document
variable {d : Document}

/-- Resolving a fragment whose references cover it, from any number, leaves no placeholder of a model or an enum in
    either schema. Resolving the result once more, from any number, changes nothing. -/
theorem resolve_fixed_point (d : Document) {f : Fragment} (h : f.Covered) (last : Nat) :
    let r := ((d.resolve f).run last).1
    (∀ v, ∀ n ∈ (r.schema v).placeholders.names, n ∉ d.modelNames ∧ n ∉ d.enumNames) ∧
      ∀ last', (d.resolve ⟨r.canonical, r.input, r.canonical.placeholders⟩).run last' =
        (⟨r.canonical, r.input, [], [], r.unresolved⟩, last') := by
  intro r
  have hinput : ∀ n ∈ f.input.occurrences, n ∈ f.canonical.occurrences := fun n hn =>
    ObjectSchema.mem_placeholders.mp (h.input n (ObjectSchema.mem_placeholders.mpr hn))
  have hrefs : ∀ n ∈ f.canonical.occurrences, n ∈ f.references.names := fun n hn =>
    h.canonical n (ObjectSchema.mem_placeholders.mpr hn)
  have hr : r = ((d.resolve f).run last).1 := rfl
  rw [run_resolve hinput] at hr
  have hcanonical : ∀ n ∈ r.canonical.occurrences, d.Undeclared n := by
    rw [hr]
    exact undeclared_of_bind hrefs
  have hrest : ∀ n ∈ r.input.occurrences, d.Undeclared n := by
    rw [hr]
    exact undeclared_of_bind fun n hn => hrefs n (hinput n hn)
  have hsub : ∀ n ∈ r.input.occurrences, n ∈ r.canonical.occurrences := by
    rw [hr]
    intro n hn
    rw [ObjectSchema.occurrences_bind, List.mem_flatMap] at hn ⊢
    obtain ⟨name, hname, hn⟩ := hn
    exact ⟨name, hinput name hname, by rwa [occurrences_resolvedAt d .canonical .input]⟩
  have hunresolved : r.unresolved = r.canonical.placeholders.names := by
    rw [hr]
    show _ = (f.canonical.bind fun n => (d.inlinedAt _ _ _ n).bind d.linked).placeholders.names
    rw [← ObjectSchema.bind_bind, names_placeholders_linked]
  refine ⟨fun v n hn => ?_, fun last' => ?_⟩
  · rw [ObjectSchema.mem_placeholders] at hn
    cases v
    · exact hcanonical n hn
    · exact hrest n hn
  · rw [hunresolved]
    exact run_resolve_of_undeclared hsub hcanonical
      (fun n hn => hcanonical n (ObjectSchema.mem_placeholders.mp hn)) last'

/-- A model with an enum's field is inlined into an object that was there before, and one name matches nothing. -/
theorem resolve_fixed_point_nested :
    let user : Model := ⟨"User", [.new "role" "Role", .new "posts" "Post"]⟩
    let d : Document := ⟨[⟨"Post", [.new "author" "User"]⟩, user], [⟨"Role", []⟩]⟩
    let author : Expr := .object ⟨"Author", [⟨"role", .placeholder "Role"⟩, ⟨"user", .placeholder "User"⟩], true⟩
    let f : Fragment :=
      ⟨⟨"Post_model", [⟨"authors", .optional (.array author)⟩, ⟨"blob", .placeholder "Bytes"⟩], false⟩,
        ⟨"Post_input_model", [⟨"author", author⟩], false⟩, ⟨["User", "Bytes", "Role", "Ghost"]⟩⟩
    let r := ((d.resolve f).run 4).1
    f.Covered ∧ r.inlined = ["User"] ∧ r.enumImports = ["Role"] ∧ r.unresolved = ["Bytes"] ∧
      "Bytes" ∉ d.modelNames ∧
      (d.resolve ⟨r.canonical, r.input, r.canonical.placeholders⟩).run 9 =
        (⟨r.canonical, r.input, [], [], ["Bytes"]⟩, 9) := by
  intro user d author f r
  have hcovered : f.Covered := ⟨by decide, by decide⟩
  obtain ⟨hundeclared, hagain⟩ := resolve_fixed_point d hcovered 4
  exact ⟨hcovered, by decide, by decide, by decide, (hundeclared .canonical "Bytes" (by decide)).1, hagain 9⟩

end Document

end SchemaForge
