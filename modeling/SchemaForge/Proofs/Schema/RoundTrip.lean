import SchemaForge.Entity
import SchemaForge.Proofs.Decode.Record
import SchemaForge.Schema.Json

/-! Schema trees and entities that are written and read again. A node names its kind, which picks the reader of its
    content, so an expression is read as what it was at every depth. An entity leaves out its lists of names when
    they are empty, and a list that is left out is read as an empty one. -/

namespace SchemaForge

/-- Every value is written with the members of its objects in the order of their keys, and it is read again as
    itself. -/
def Rereads {α : Type} (write : α → Json) (read : Json → Except DecodeError α) : Prop :=
  ∀ a, (write a).Ordered ∧ read (write a) = .ok a

theorem Scalar.ofJson_toJson (s : Scalar) : ofJson s.toJson = .ok s := by cases s <;> rfl

/-! ### Trees -/

/-- The name of a kind under `type` picks what reads the content. -/
theorem Expr.ofJson_node (kind : Expr.Kind) {name : String} (h : Expr.Kind.table.lookup name = some kind) (v : Json) :
    Expr.ofJson (.object [("type", .string name), ("value", v)]) =
      kind.node v (fun _ => Expr.ofJson v) (fun _ => ObjectSchema.ofJson v) := by
  have hkind : Expr.Kind.ofMembers [("type", .string name), ("value", v)] = .ok kind := by
    show Decode.select Expr.Kind.table name = .ok kind
    rw [Decode.select, h]
  rw [Expr.ofJson, hkind]
  rfl

mutual

theorem Expr.ofJson_toJson : ∀ x : Expr, Expr.ofJson x.toJson = .ok x
  | .scalar s => by
    rw [Expr.toJson, Expr.ofJson_node .scalar rfl, Expr.Kind.node, s.ofJson_toJson]
    rfl
  | .placeholder name => by
    rw [Expr.toJson, Expr.ofJson_node .placeholder rfl]
    rfl
  | .enumRef name => by
    rw [Expr.toJson, Expr.ofJson_node .enumRef rfl]
    rfl
  | .array item => by
    rw [Expr.toJson, Expr.ofJson_node .array rfl, Expr.Kind.node, Expr.ofJson_toJson item]
    rfl
  | .optional value => by
    rw [Expr.toJson, Expr.ofJson_node .optional rfl, Expr.Kind.node, Expr.ofJson_toJson value]
    rfl
  | .object schema => by
    rw [Expr.toJson, Expr.ofJson_node .object rfl, Expr.Kind.node, ObjectSchema.ofJson_toJson schema]
    rfl

theorem ObjectSchema.ofJson_toJson : ∀ o : ObjectSchema, ObjectSchema.ofJson o.toJson = .ok o
  | ⟨id, ps, additional⟩ => by
    have hread : ObjectSchema.ofJson (ObjectSchema.toJson ⟨id, ps, additional⟩) =
        Property.ofEach (Property.eachToJson ps) >>= fun ps => .ok ⟨id, ps, additional⟩ := rfl
    rw [hread, Property.ofEach_eachToJson ps]
    rfl

theorem Property.ofEach_eachToJson : ∀ ps : List Property, Property.ofEach (Property.eachToJson ps) = .ok ps
  | [] => rfl
  | p :: ps => by
    rw [Property.eachToJson, Property.ofEach, Property.ofJson_toJson p, Property.ofEach_eachToJson ps]
    rfl

theorem Property.ofJson_toJson : ∀ p : Property, Property.ofJson p.toJson = .ok p
  | ⟨name, x⟩ => by
    have hread : Property.ofJson (Property.toJson ⟨name, x⟩) = Expr.ofJson x.toJson >>= fun x => .ok ⟨name, x⟩ := rfl
    rw [hread, Expr.ofJson_toJson x]
    rfl

end

theorem Expr.ordered_node {v : Json} (hv : v.Ordered) (name : String) :
    (Json.object [("type", .string name), ("value", v)]).Ordered := by
  have hkeys : ["type", "value"].Pairwise (· < ·) := by decide
  exact .object (Assoc.sorted_of_keys hkeys) (List.forall_mem_cons.mpr ⟨.string name, List.forall_mem_singleton.mpr hv⟩)

mutual

theorem Expr.ordered_toJson : ∀ x : Expr, x.toJson.Ordered
  | .scalar _ => Expr.ordered_node (.string _) _
  | .placeholder _ => Expr.ordered_node (.string _) _
  | .enumRef _ => Expr.ordered_node (.string _) _
  | .array item => Expr.ordered_node (Expr.ordered_toJson item) _
  | .optional value => Expr.ordered_node (Expr.ordered_toJson value) _
  | .object schema => Expr.ordered_node (ObjectSchema.ordered_toJson schema) _

theorem ObjectSchema.ordered_toJson : ∀ o : ObjectSchema, o.toJson.Ordered
  | ⟨id, ps, additional⟩ => by
    have hkeys : ["additional_properties", "fields", "id"].Pairwise (· < ·) := by decide
    refine .object (Assoc.sorted_of_keys hkeys) (List.forall_mem_cons.mpr ⟨.bool additional, ?_⟩)
    exact List.forall_mem_cons.mpr ⟨.array (Property.ordered_eachToJson ps), List.forall_mem_singleton.mpr (.string id)⟩

theorem Property.ordered_eachToJson : ∀ ps : List Property, ∀ v ∈ Property.eachToJson ps, v.Ordered
  | [], _, hv => absurd hv List.not_mem_nil
  | p :: ps, v, hv => by
    rcases List.mem_cons.mp hv with rfl | hv
    · exact Property.ordered_toJson p
    · exact Property.ordered_eachToJson ps v hv

theorem Property.ordered_toJson : ∀ p : Property, p.toJson.Ordered
  | ⟨name, x⟩ => by
    have hkeys : ["expr", "name"].Pairwise (· < ·) := by decide
    refine .object (Assoc.sorted_of_keys hkeys) (List.forall_mem_cons.mpr ⟨Expr.ordered_toJson x, ?_⟩)
    exact List.forall_mem_singleton.mpr (.string name)

end

/-! ### Entities -/

namespace Entity

/-- Members go into a draft one after the other. -/
def Draft.putAll (d : Draft) (members : List (String × Json)) : Except DecodeError Draft :=
  members.foldlM (fun d m => d.put m.1 m.2) d

theorem putAll_append {d d' d'' : Draft} {members rest : List (String × Json)} (h : d.putAll members = .ok d')
    (h' : d'.putAll rest = .ok d'') : d.putAll (members ++ rest) = .ok d'' := by
  rw [Draft.putAll, List.foldlM_append]
  exact bind_eq_ok.mpr ⟨d', h, h'⟩

/-- A list of names goes into a draft that has none yet, whether it is written or left out. -/
theorem putAll_namesMember (key : String) (set : Draft → List String → Draft)
    (hput : ∀ d v, Draft.put d key v = set d <$> Decode.names v) {d : Draft} (hd : set d [] = d) (names : List String) :
    d.putAll (namesMember key names) = .ok (set d names) := by
  cases names with
  | nil =>
    rw [hd]
    rfl
  | cons name names =>
    show Draft.put d key (.array ((name :: names).map Json.string)) >>= pure = _
    rw [hput, Decode.names_map_string]
    rfl

theorem putAll_required {d : Draft} {v : Json} {input : Option String} (hv : inputOfJson v = .ok input)
    (kind : Entity.Kind) (name : String) :
    d.putAll [("input", v), ("kind", kind.toJson), ("name", .string name)] =
      .ok { d with input, kind := some kind, name := some name } := by
  have hinput : d.putAll [("input", v)] = .ok { d with input } := by
    show (inputOfJson v >>= fun input => .ok { d with input }) >>= pure = _
    rw [hv]
    rfl
  refine putAll_append hinput ?_
  cases kind <;> rfl

theorem ofJson_toJson (e : Entity) : ofJson e.toJson = .ok e := by
  obtain ⟨name, kind, canonical, input, enumImports, unresolved⟩ := e
  have hcanonical : Draft.putAll {} [("canonical", .string canonical)] = .ok { canonical := some canonical } := rfl
  have himports := putAll_namesMember "enum_imports" (fun d names => { d with enumImports := names })
    (fun _ _ => rfl) (d := { canonical := some canonical }) rfl enumImports
  have hunresolved := putAll_namesMember "unresolved" (fun d names => { d with unresolved := names })
    (fun _ _ => rfl) (d := ⟨some name, some kind, some canonical, input, enumImports, []⟩) rfl unresolved
  refine bind_eq_ok.mpr ⟨⟨some name, some kind, some canonical, input, enumImports, unresolved⟩, ?_, rfl⟩
  refine putAll_append (putAll_append (putAll_append hcanonical himports) (putAll_required ?_ kind name)) hunresolved
  -- An entity without input is written with null there, which is read as none.
  cases input <;> rfl

theorem sublist_keys_namesMember (key : String) (names : List String) :
    ((namesMember key names).map Prod.fst).Sublist [key] := by
  cases names with
  | nil => exact List.nil_sublist _
  | cons name names => exact List.Sublist.refl _

theorem ordered_namesMember {key : String} {names : List String} : ∀ m ∈ namesMember key names, m.2.Ordered := by
  cases names with
  | nil => exact List.forall_mem_nil _
  | cons name names =>
    refine List.forall_mem_singleton.mpr (.array fun v hv => ?_)
    obtain ⟨text, -, rfl⟩ := List.mem_map.mp hv
    exact .string text

theorem ordered_toJson (e : Entity) : e.toJson.Ordered := by
  have hkeys : ["canonical", "enum_imports", "input", "kind", "name", "unresolved"].Pairwise (· < ·) := by decide
  refine .object (Assoc.sorted_of_keys (hkeys.sublist ?_)) ?_
  · simp only [List.map_append]
    exact (((List.Sublist.refl _).append (sublist_keys_namesMember _ _)).append (List.Sublist.refl _)).append
      (sublist_keys_namesMember _ _)
  · simp only [List.forall_mem_append, List.forall_mem_cons]
    refine ⟨⟨⟨⟨.string _, List.forall_mem_nil _⟩, ordered_namesMember⟩,
      ⟨?_, .string _, .string _, List.forall_mem_nil _⟩⟩, ordered_namesMember⟩
    cases e.input with
    | none => exact .null
    | some text => exact .string text

end Entity

/-- Expressions, properties, object schemas and entities are each read as what was written. -/
theorem rereads_trees_and_entities : Rereads Expr.toJson Expr.ofJson ∧ Rereads Property.toJson Property.ofJson ∧
    Rereads ObjectSchema.toJson ObjectSchema.ofJson ∧ Rereads Entity.toJson Entity.ofJson :=
  ⟨fun x => ⟨x.ordered_toJson, x.ofJson_toJson⟩, fun p => ⟨p.ordered_toJson, p.ofJson_toJson⟩,
    fun o => ⟨o.ordered_toJson, o.ofJson_toJson⟩, fun e => ⟨e.ordered_toJson, e.ofJson_toJson⟩⟩

end SchemaForge
