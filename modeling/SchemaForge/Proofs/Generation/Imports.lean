import SchemaForge.Proofs.Generation.Declarations
import SchemaForge.Proofs.Resolution.Names

/-! The lists of a resolved model are exact. Its imports are the enums that its schemas refer to, each once, in the
    order of the trees, and they are the imports of both files. Its unresolved names are the placeholders that
    are left, the same in both schemas. -/

namespace SchemaForge

/-- The imports of a resolved model are the enums in its schemas. A type of a field of `m` is imported if it is an
    enum, and a type of a field of an inlined model if it is no model as well. -/
structure Resolved.ImportsExact (d : Document) (m : Model) (r : Resolved) : Prop where
  nodup : r.enumImports.Nodup
  enumNames : ∀ v, (r.schema v).enumNames.eraseDups = r.enumImports
  mem_iff : ∀ n, n ∈ r.enumImports ↔ Scalar.ofTag? n = none ∧ n ∈ d.enumNames ∧ ((∃ f ∈ m.fields, f.type = n) ∨
    n ∉ d.modelNames ∧ ∃ dependency, d.Inlines m dependency ∧ ∃ f ∈ dependency.fields, f.type = n)
  emitted : ∀ n ∈ r.enumImports, ∀ o, ∃ e ∈ d.generate o, e.name = n ∧ e.kind = .enum
  /-- The files are those of the entity. -/
  files : ∀ o, (Generation.modelEntity o m r).texts =
    [(Generation.modelSource o m .canonical r).text o.lineEnding, (Generation.modelSource o m .input r).text o.lineEnding]
  /-- One line for the library and one for each enum. Names of letters, digits and low lines have no comma. -/
  lines : (∀ n ∈ d.enumNames, ',' ∉ n.toList) → ∀ o v,
    (Generation.modelSource o m v r).imports.map (·.text) = o.libraryImport :: r.enumImports.map o.enumImport

/-- The unresolved names of a resolved model are what is left in its schemas: the types of fields, its own and
    those of the models that are inlined, that are no scalar, no model and no enum. -/
structure Resolved.UnresolvedExact (d : Document) (m : Model) (r : Resolved) : Prop where
  nodup : r.unresolved.Nodup
  placeholders : ∀ v, (r.schema v).placeholders.names = r.unresolved
  mem_iff : ∀ n, n ∈ r.unresolved ↔ Scalar.ofTag? n = none ∧ n ∉ d.modelNames ∧ n ∉ d.enumNames ∧
    ((∃ f ∈ m.fields, f.type = n) ∨ ∃ dependency, d.Inlines m dependency ∧ ∃ f ∈ dependency.fields, f.type = n)

namespace Options
variable {o : Options} {n : String}

/-- The library's import has a comma after its first name, which no import of a name without a comma has. -/
theorem enumImport_ne_libraryImport (hn : ',' ∉ n.toList) : o.enumImport n ≠ o.libraryImport := by
  intro h
  have hlibrary : "import \x7b Type, Static \x7d from '".toList =
      "import \x7b ".toList ++ ("Type".toList ++ ',' :: " Static \x7d from '".toList) := by simp
  have henum : " \x7d from '".toList = ' ' :: "\x7d from '".toList := by simp
  have hdef : o.libraryImport = "import \x7b Type, Static \x7d from '" ++ o.library ++ "'" := rfl
  have hchars := congrArg String.toList h
  rw [enumImport_eq, hdef] at hchars
  simp only [String.toList_append, List.append_assoc] at hchars
  rw [henum, hlibrary, List.append_assoc, List.append_assoc] at hchars
  replace hchars := List.append_cancel_left hchars
  -- The longer one of `Type` and the name goes on with the character after the shorter one, which it does not have.
  rcases List.append_eq_append_iff.mp hchars with ⟨as, htype, hrest⟩ | ⟨as, hname, hrest⟩
  · cases as with
    | nil => exact absurd (List.cons.inj hrest).1 (by decide)
    | cons a as =>
      obtain rfl := (List.cons.inj hrest).1
      have hmem : ' ' ∈ "Type".toList := htype ▸ List.mem_append_right _ List.mem_cons_self
      exact absurd hmem (by decide)
  · cases as with
    | nil => exact absurd (List.cons.inj hrest).1 (by decide)
    | cons a as =>
      obtain rfl := (List.cons.inj hrest).1
      exact hn (hname ▸ List.mem_append_right _ List.mem_cons_self)

theorem text_imports {enums : List String} (h : ∀ n ∈ enums, ',' ∉ n.toList) :
    (o.imports enums).map (·.text) = o.libraryImport :: enums.map o.enumImport := by
  have hall : o.importedEnums enums = enums :=
    List.filter_eq_self.mpr fun n hn => decide_eq_true (enumImport_ne_libraryImport (h n hn))
  rw [imports, hall, List.map_cons, List.map_map]
  congr 1
  refine List.map_congr_left fun n _ => ?_
  rw [Function.comp_apply, Statement.text_import, enumImport_eq]
  simp only [String.append_assoc]

end Options

namespace Document
variable {d : Document} {m : Model}

theorem exists_enumEntity {n : String} (hn : n ∈ d.enumNames) (o : Options) :
    ∃ e ∈ d.generate o, e.name = n ∧ e.kind = .enum := by
  obtain ⟨e, he, rfl⟩ := List.mem_map.mp hn
  rw [generate_eq]
  exact ⟨_, List.mem_append_right _ (List.mem_map_of_mem he), rfl, rfl⟩

/-- Resolving a model from any number yields exact lists of imports and of unresolved names. -/
theorem imports_and_unresolved_exact (d : Document) (m : Model) (last : Nat) :
    let r := ((d.resolveModel m).run last).1
    r.ImportsExact d m ∧ r.UnresolvedExact d m := by
  intro r
  have hnodup : r.enumImports.Nodup := d.nodup_enumImports (m, last)
  have henum : ∀ n ∈ r.enumImports, n ∈ d.enumNames := fun n hn => enumImports_sub (p := (m, last)) hn
  refine ⟨⟨hnodup, fun v => ?_, fun n => mem_enumImports_iff last, fun n hn => exists_enumEntity (henum n hn),
    fun o => ?_, fun hcomma o v => ?_⟩, ⟨?_, fun v => ?_, fun n => mem_unresolved_iff last⟩⟩
  · rw [enumNames_resolveModel, enumImports_resolveModel]
  · rw [← Generation.text_modelSource hnodup, ← Generation.text_modelSource hnodup]
    rfl
  · exact Options.text_imports fun n hn => hcomma n (henum n hn)
  · rw [unresolved_resolveModel]
    exact References.nodup_eraseDups _
  · rw [ObjectSchema.names_placeholders, occurrences_resolveModel, unresolved_resolveModel]

theorem imports_and_unresolved_exact_team :
    let user : Model := ⟨"User", [.new "role" "Role", .new "team" "Team", .new "plan" "Plan"]⟩
    let team : Model := ⟨"Team", [.new "level" "Level", .new "owner" "User", .new "site" "Site"]⟩
    let d : Document := ⟨[user, team], [⟨"Role", [⟨"USER"⟩]⟩, ⟨"Level", [⟨"LOW"⟩]⟩]⟩
    let r := ((d.resolveModel user).run 0).1
    (∀ n ∈ d.enumNames, ',' ∉ n.toList) ∧ r.enumImports = ["Role", "Level"] ∧ r.unresolved = ["Site", "Plan"] ∧
      (Generation.modelSource {} user .input r).imports.map (·.text) =
        ["import \x7b Type, Static \x7d from '@sinclair/typebox'", "import \x7b Role \x7d from './Role'",
          "import \x7b Level \x7d from './Level'"] ∧
      "Level" ∈ r.enumImports ∧ "Site" ∈ r.unresolved := by
  intro user team d r
  have hcomma : ∀ n ∈ d.enumNames, ',' ∉ n.toList := by decide
  obtain ⟨himports, hunresolved⟩ := imports_and_unresolved_exact d user 0
  have hteam : d.Inlines user team := ⟨_, List.mem_cons_of_mem _ List.mem_cons_self, rfl, by decide, rfl⟩
  refine ⟨hcomma, by decide, by decide, himports.lines hcomma {} .input, ?_, ?_⟩
  · exact (himports.mem_iff "Level").mpr ⟨by decide, by decide, Or.inr ⟨by decide, team, hteam, _, List.mem_cons_self, rfl⟩⟩
  · exact (hunresolved.mem_iff "Site").mpr
      ⟨by decide, by decide, by decide, Or.inr ⟨team, hteam, _, List.mem_of_getLast? rfl, rfl⟩⟩

end Document

end SchemaForge
