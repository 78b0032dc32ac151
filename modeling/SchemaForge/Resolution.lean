import SchemaForge.Fragment

/-!
Resolving the references of a fragment against a document. First every referenced model is inlined, in the order of
the references, with its own references to models dropped; then every placeholder that names an enum becomes a
reference to it, and the others stay. A name of an enum is never taken for a model.
-/

namespace SchemaForge

/-- A model's schemas with their references resolved. -/
structure Resolved where
  canonical : ObjectSchema
  input : ObjectSchema
  /-- The inlined models, in order. -/
  inlined : List String
  /-- The enums that the schemas refer to. -/
  enumImports : List String
  /-- The names that are neither a model nor an enum of the document. -/
  unresolved : List String

/-- Schemas in which models are being inlined. -/
structure Inlining where
  canonical : ObjectSchema
  input : ObjectSchema
  inlined : List String := []

namespace Document

/-- The model that a name stands for in a reference; enums come first. -/
def inlinable? (d : Document) (name : String) : Option Model :=
  match d.enum? name with
  | some _ => none
  | none => d.model? name

/-- Inlines the model of a name, if it has one. -/
def inline (d : Document) (s : Inlining) (name : String) : Numbering Inlining :=
  match d.inlinable? name with
  | none => return s
  | some model => do
    let dependency ← model.fragment (.inlined d.modelNames)
    return ⟨s.canonical.replace name (.object dependency.canonical), s.input.replace name (.object dependency.input),
      s.inlined ++ [name]⟩

/-- Turns the placeholders of an enum into references to it, in both schemas; other names are noted as unresolved. -/
def resolveEnum (d : Document) (r : Resolved) (name : String) : Resolved :=
  match d.enum? name with
  | some _ =>
    { r with
      canonical := r.canonical.replace name (.enumRef name)
      input := r.input.replace name (.enumRef name)
      enumImports := r.enumImports ++ [name] }
  | none => { r with unresolved := r.unresolved ++ [name] }

/-- Resolves what is left in the schemas once models are inlined. -/
def resolveEnums (d : Document) (s : Inlining) : Resolved :=
  s.canonical.placeholders.names.foldl d.resolveEnum ⟨s.canonical, s.input, s.inlined, [], []⟩

/-- Resolves the references of a fragment. -/
def resolve (d : Document) (f : Fragment) : Numbering Resolved := do
  let inlined ← f.references.names.foldlM d.inline ⟨f.canonical, f.input, []⟩
  return d.resolveEnums inlined

/-- The resolved schemas of a model at the top level. -/
def resolveModel (d : Document) (m : Model) : Numbering Resolved := do
  d.resolve (← m.fragment .topLevel)

end Document

end SchemaForge
