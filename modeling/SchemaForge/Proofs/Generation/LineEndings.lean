import SchemaForge.Proofs.Emitter.Template
import SchemaForge.Proofs.Generation.Pass
import SchemaForge.Proofs.Text.Replacing

/-! A pass under another line ending. The line ending is applied to a file as a whole, once all of its text is put
    together, and nothing before depends on it. So it changes the line feeds of the texts and nothing else, and the
    change can be taken back. -/

namespace SchemaForge

/-- The entity with its texts changed in the same way. -/
def Entity.mapTexts (f : String → String) (e : Entity) : Entity :=
  { e with canonical := f e.canonical, input := e.input.map f }

theorem Entity.map_mapTexts {f g : String → String} (h : ∀ s, g (f s) = s) (entities : List Entity) :
    (entities.map (mapTexts f)).map (mapTexts g) = entities := by
  have hback : g ∘ f = id := funext h
  have hself : mapTexts g ∘ mapTexts f = id := by
    funext e
    simp only [Function.comp_apply, mapTexts, h, Option.map_map, hback, Option.map_id, id]
  rw [List.map_map, hself, List.map_id]

namespace Emitter
variable (e : Emitter) (ending : LineEnding)

theorem file_ending (imports : List String) (body : String) :
    ({ e with lineEnding := ending } : Emitter).file imports body =
      ending.apply (({ e with lineEnding := .lf } : Emitter).file imports body) := rfl

theorem modelFile_ending (model : String) (v : Variant) (schema : ObjectSchema) (imports : List String) :
    ({ e with lineEnding := ending } : Emitter).modelFile model v schema imports =
      ending.apply (({ e with lineEnding := .lf } : Emitter).modelFile model v schema imports) := by
  have hobject : ({ e with lineEnding := ending } : Emitter).object schema 0 =
    ({ e with lineEnding := .lf } : Emitter).object schema 0 := object_congr rfl fun _ _ => rfl
  rw [modelFile, modelFile, hobject, file_ending]

theorem enumFile_ending (enum : Enum) (imports : List String) :
    ({ e with lineEnding := ending } : Emitter).enumFile enum imports =
      ending.apply (({ e with lineEnding := .lf } : Emitter).enumFile enum imports) := by
  have hentries : ({ e with lineEnding := ending } : Emitter).enumEntry =
    ({ e with lineEnding := .lf } : Emitter).enumEntry := rfl
  rw [enumFile, enumFile, file_ending, hentries]

end Emitter

namespace Document

/-- A line ending is applied to the texts of a pass with line feeds. -/
theorem generate_ending (d : Document) (o : Options) (ending : LineEnding) :
    d.generate { o with lineEnding := ending } =
      (d.generate { o with lineEnding := .lf }).map (Entity.mapTexts ending.apply) := by
  rw [generate_eq, generate_eq, List.map_append, List.map_map, List.map_map]
  refine congrArg₂ (· ++ ·) (List.map_congr_left fun p _ => ?_) (List.map_congr_left fun enum _ => ?_)
  · have hfile := fun v => (Emitter.ofOptions o).modelFile_ending ending p.1.name v ((d.resolvedModel p).schema v)
      (o.importLines (d.resolvedModel p).enumImports)
    exact congrArg ((d.resolvedModel p).entity p.1.name) (funext hfile)
  · exact congrArg (Entity.ofEnum enum.name) ((Emitter.ofOptions o).enumFile_ending ending enum (o.importLines []))

/-- With carriage returns every line feed in the texts is replaced and nothing else, and replacing it back gives the
    entities with line feeds. -/
theorem generate_crlf (d : Document) (o : Options) :
    let lf := d.generate { o with lineEnding := .lf }
    let crlf := d.generate { o with lineEnding := .crlf }
    crlf = lf.map (Entity.mapTexts (Text.replaced "\n" "\r\n")) ∧
      crlf.map (Entity.mapTexts (Text.replaced "\r\n" "\n")) = lf := by
  intro lf crlf
  have hcrlf : crlf = lf.map (Entity.mapTexts LineEnding.crlf.apply) := d.generate_ending o .crlf
  refine ⟨?_, ?_⟩
  · rw [hcrlf, funext LineEnding.apply_crlf]
  · rw [hcrlf, Entity.map_mapTexts LineEnding.replaced_apply_crlf]

end Document

end SchemaForge
