import SchemaForge.Files.Path
import SchemaForge.Generation
import SchemaForge.Settings

/-!
The files that a run writes: one for each entity, and a second one, for input, for each model.
-/

namespace SchemaForge

structure OutputFile where
  path : String
  content : String
  deriving DecidableEq

structure Plan where
  /-- The files in the order of the entities, canonical before input. -/
  files : List OutputFile
  entities : List Entity

namespace Plan

/-- The number of names that the entities leave unresolved, counted for each entity. -/
def unresolvedCount (p : Plan) : Nat := (p.entities.flatMap (·.unresolved)).length

end Plan

namespace Settings

/-- The path of a file by its name without extension. -/
def outputPath (s : Settings) (stem : String) : String :=
  Path.join s.output.directory (stem ++ "." ++ Generation.fileExtension)

/-- The files of an entity. -/
def filesOf (s : Settings) (e : Entity) : List OutputFile :=
  ⟨s.outputPath e.name, e.canonical⟩ ::
    (e.input.map fun text => ⟨s.outputPath (e.name ++ s.output.inputSuffix), text⟩).toList

/-- The files for a document. -/
def plan (s : Settings) (d : Document) : Plan :=
  let entities := d.generate s.generator
  ⟨entities.flatMap s.filesOf, entities⟩

end Settings

end SchemaForge
