import SchemaForge.Document.Json
import SchemaForge.Emitter
import SchemaForge.Entity
import SchemaForge.Resolution

/-!
Generating the schemas of a document. One numbering runs through the whole pass: models in their order, each with the
models inlined into it, and then the enums, which take no numbers.
-/

namespace SchemaForge

namespace Generation

/-- How the generator is known. -/
def id : String := "typebox"

def name : String := "TypeBox Schema Generator"

/-- The extension of generated files. -/
def fileExtension : String := "ts"

/-- The entity of a model whose references are resolved. -/
def modelEntity (o : Options) (m : Model) (r : Resolved) : Entity :=
  let emitter := Emitter.ofOptions o
  let imports := o.importLines r.enumImports
  ⟨m.name, .model, emitter.modelFile m.name .canonical r.canonical imports,
    some (emitter.modelFile m.name .input r.input imports), r.enumImports, r.unresolved⟩

/-- The entity of a model, from the number that was handed out last. -/
def generateModel (d : Document) (o : Options) (m : Model) : Numbering Entity := do
  return modelEntity o m (← d.resolveModel m)

def enumEntity (o : Options) (e : Enum) : Entity :=
  .ofEnum e.name ((Emitter.ofOptions o).enumFile e (o.importLines []))

/-- The entities of the models, in order. -/
def generateModels (d : Document) (o : Options) : List Model → Numbering (List Entity)
  | [] => return []
  | m :: ms => do
    let entity ← generateModel d o m
    return entity :: (← generateModels d o ms)

end Generation

/-- The entities of a document: its models in order, then its enums. -/
def Document.generate (d : Document) (o : Options) : List Entity :=
  ((Generation.generateModels d o d.models).run 0).1 ++ d.enums.map (Generation.enumEntity o)

end SchemaForge
