import SchemaForge.Document.Json
import SchemaForge.Proofs.Decode.Record

/-! The grammar of documents. A value is a document when its models and enums have their forms, down to every field
    and enum value, and then reading it yields the document that it describes; no other value is read. A default
    may be any value at all. -/

namespace SchemaForge

/-- The name and the arguments of a function: an object with a string `name` that has no `args` or an array of
    them. -/
def Json.function? : Json → Option (String × List Json)
  | .object members =>
    match members.lookup "name", members.lookup "args" with
    | some (.string name), none => some (name, [])
    | some (.string name), some (.array args) => some (name, args)
    | _, _ => none
  | _ => none

/-! ### Fields -/

namespace Field

/-- The fields of a field, of which a name and a type are required. -/
def kinds : List (String × (Json → Bool)) :=
  [("name", Json.isString), ("type", Json.isString), ("isList", Json.isBoolean), ("isRequired", Json.isBoolean),
    ("hasDefaultValue", Json.isBoolean), ("isId", Json.isBoolean), ("default", fun _ => true)]

/-- What a default says: nothing if it is null, a function if it has the form of one, and else itself. -/
def statedDefault : Json → Option FieldDefault
  | .null => none
  | v =>
    match v.function? with
    | some (name, args) => some (.function name args)
    | none => some (.literal v)

/-- The field that has these parts. A boolean that is missing is false. -/
def ofParts (part : String → Option Json) : Field where
  name := ((part "name").map Json.text).getD ""
  type := ((part "type").map Json.text).getD ""
  isList := ((part "isList").map Json.truth).getD false
  isRequired := ((part "isRequired").map Json.truth).getD false
  hasDefaultValue := ((part "hasDefaultValue").map Json.truth).getD false
  isId := ((part "isId").map Json.truth).getD false
  default := (part "default").bind statedDefault

end Field

def Json.isField (v : Json) : Bool := v.isRecord Field.kinds 2

/-- The field that a value describes. -/
def Field.describedBy (v : Json) : Field := .ofParts (v.part? (Field.kinds.map Prod.fst))

namespace Field

theorem defaultOfJson_eq (v : Json) : defaultOfJson v = statedDefault v := by
  cases v with
  | object members =>
    simp only [defaultOfJson, statedDefault, FieldDefault.ofJson, Json.member?, Json.function?]
    grind
  | _ => rfl

/-- The draft with these parts in place of its own. -/
def Draft.fill (d : Draft) (part : String → Option Json) : Draft where
  name := ((part "name").map fun v => some v.text).getD d.name
  type := ((part "type").map fun v => some v.text).getD d.type
  isList := ((part "isList").map Json.truth).getD d.isList
  isRequired := ((part "isRequired").map Json.truth).getD d.isRequired
  hasDefaultValue := ((part "hasDefaultValue").map Json.truth).getD d.hasDefaultValue
  isId := ((part "isId").map Json.truth).getD d.isId
  default := ((part "default").map statedDefault).getD d.default

theorem Draft.put_eq_ok_iff (d : Draft) (name : String) (v : Json) (d' : Draft) : d.put name v = .ok d' ↔
    (∀ f ∈ kinds, f.1 = name → f.2 v = true) ∧ d' = d.fill (Assoc.only name v) := by
  unfold Draft.put Draft.fill Assoc.only
  split
  case h_8 => simp_all [kinds, @eq_comm _ _ d', @eq_comm _ _ name]
  all_goals simp [kinds, Decode.map_string_eq_ok_iff, Decode.map_boolean_eq_ok_iff, defaultOfJson_eq, @eq_comm _ _ d']

theorem fills : Decode.Fills form kinds {} Draft.put Draft.finish Draft.fill ofParts where
  names := rfl
  nodup := by decide
  fill_none _ := rfl
  fill_fill d name v part h := by simp only [Draft.fill, Assoc.slot_fill h]
  put d name v _ := d.put_eq_ok_iff name v
  finish part a := by
    have hrequired : kinds.take form.required = [("name", Json.isString), ("type", Json.isString)] := rfl
    rw [hrequired]
    unfold Draft.finish Draft.fill ofParts Decode.required
    cases hname : part "name" <;> cases htype : part "type" <;> cases part "default" <;>
      simp [hname, htype, bind, Except.bind, pure, Except.pure, @eq_comm _ _ a]

theorem ofJson_eq_ok_iff {v : Json} (hv : v.Ordered) {f : Field} :
    ofJson v = .ok f ↔ v.isField = true ∧ f = describedBy v := fills.record_eq_ok_iff hv

end Field

/-! ### Models -/

namespace Model

/-- The fields of a model, of which a name is required. -/
def kinds : List (String × (Json → Bool)) := [("name", Json.isString), ("fields", Json.isArrayOf Json.isField)]

/-- The model that has these parts, with no fields if they are missing. -/
def ofParts (part : String → Option Json) : Model where
  name := ((part "name").map Json.text).getD ""
  fields := ((part "fields").map fun v => v.items.map Field.describedBy).getD []

end Model

def Json.isModel (v : Json) : Bool := v.isRecord Model.kinds 1

/-- The model that a value describes. -/
def Model.describedBy (v : Json) : Model := .ofParts (v.part? (Model.kinds.map Prod.fst))

namespace Model

/-- The draft with these parts in place of its own. -/
def Draft.fill (d : Draft) (part : String → Option Json) : Draft where
  name := ((part "name").map fun v => some v.text).getD d.name
  fields := ((part "fields").map fun v => v.items.map Field.describedBy).getD d.fields

theorem Draft.put_eq_ok_iff (d : Draft) (name : String) {v : Json} (hv : v.Ordered) (d' : Draft) :
    d.put name v = .ok d' ↔ (∀ f ∈ kinds, f.1 = name → f.2 v = true) ∧ d' = d.fill (Assoc.only name v) := by
  have hfields : ∀ w ∈ v.items, ∀ f, Field.ofJson w = .ok f ↔ w.isField = true ∧ f = .describedBy w :=
    fun _ hw _ => Field.ofJson_eq_ok_iff (hv.of_mem_items hw)
  unfold Draft.put Draft.fill Assoc.only
  split
  case h_3 => simp_all [kinds, @eq_comm _ _ d', @eq_comm _ _ name]
  all_goals simp [kinds, Decode.map_string_eq_ok_iff, Decode.map_list_eq_ok_iff hfields]

theorem fills : Decode.Fills form kinds {} Draft.put Draft.finish Draft.fill ofParts where
  names := rfl
  nodup := by decide
  fill_none _ := rfl
  fill_fill d name v part h := by simp only [Draft.fill, Assoc.slot_fill h]
  put d name _ hv := d.put_eq_ok_iff name hv
  finish part a := by
    have hrequired : kinds.take form.required = [("name", Json.isString)] := rfl
    rw [hrequired]
    unfold Draft.finish Draft.fill ofParts Decode.required
    cases hname : part "name" <;> simp [hname, bind, Except.bind, pure, Except.pure, @eq_comm _ _ a]

theorem ofJson_eq_ok_iff {v : Json} (hv : v.Ordered) {m : Model} :
    ofJson v = .ok m ↔ v.isModel = true ∧ m = describedBy v := fills.record_eq_ok_iff hv

end Model

/-! ### Enums -/

namespace EnumValue

/-- The only field of an enum value. -/
def kinds : List (String × (Json → Bool)) := [("name", Json.isString)]

/-- The enum value that has these parts. -/
def ofParts (part : String → Option Json) : EnumValue := ⟨((part "name").map Json.text).getD ""⟩

end EnumValue

def Json.isEnumValue (v : Json) : Bool := v.isRecord EnumValue.kinds 1

/-- The enum value that a value describes. -/
def EnumValue.describedBy (v : Json) : EnumValue := .ofParts (v.part? (EnumValue.kinds.map Prod.fst))

namespace EnumValue

theorem put_eq_ok_iff (d : Option String) (name : String) (v : Json) (d' : Option String) : put d name v = .ok d' ↔
    (∀ f ∈ kinds, f.1 = name → f.2 v = true) ∧ d' = ((Assoc.only name v "name").map fun v => some v.text).getD d := by
  unfold put Assoc.only
  split
  case h_2 => simp_all [kinds, @eq_comm _ _ d', @eq_comm _ _ name]
  simp [kinds, Decode.map_string_eq_ok_iff]

theorem fills : Decode.Fills form kinds none put finish
    (fun d part => ((part "name").map fun v => some v.text).getD d) ofParts where
  names := rfl
  nodup := by decide
  fill_none _ := rfl
  fill_fill d name v part h := Assoc.slot_fill h v "name" _ d
  put d name v _ := put_eq_ok_iff d name v
  finish part a := by
    have hrequired : kinds.take form.required = [("name", Json.isString)] := rfl
    rw [hrequired]
    unfold finish ofParts Decode.required
    cases hname : part "name" <;> simp [hname, bind, Except.bind, pure, Except.pure, @eq_comm _ _ a]

theorem ofJson_eq_ok_iff {v : Json} (hv : v.Ordered) {e : EnumValue} :
    ofJson v = .ok e ↔ v.isEnumValue = true ∧ e = describedBy v := fills.record_eq_ok_iff hv

end EnumValue

namespace Enum

/-- The fields of an enum, of which a name is required. -/
def kinds : List (String × (Json → Bool)) := [("name", Json.isString), ("values", Json.isArrayOf Json.isEnumValue)]

/-- The enum that has these parts, with no values if they are missing. -/
def ofParts (part : String → Option Json) : Enum where
  name := ((part "name").map Json.text).getD ""
  values := ((part "values").map fun v => v.items.map EnumValue.describedBy).getD []

end Enum

def Json.isEnum (v : Json) : Bool := v.isRecord Enum.kinds 1

/-- The enum that a value describes. -/
def Enum.describedBy (v : Json) : Enum := .ofParts (v.part? (Enum.kinds.map Prod.fst))

namespace Enum

/-- The draft with these parts in place of its own. -/
def Draft.fill (d : Draft) (part : String → Option Json) : Draft where
  name := ((part "name").map fun v => some v.text).getD d.name
  values := ((part "values").map fun v => v.items.map EnumValue.describedBy).getD d.values

theorem Draft.put_eq_ok_iff (d : Draft) (name : String) {v : Json} (hv : v.Ordered) (d' : Draft) :
    d.put name v = .ok d' ↔ (∀ f ∈ kinds, f.1 = name → f.2 v = true) ∧ d' = d.fill (Assoc.only name v) := by
  have hvalues : ∀ w ∈ v.items, ∀ e, EnumValue.ofJson w = .ok e ↔ w.isEnumValue = true ∧ e = .describedBy w :=
    fun _ hw _ => EnumValue.ofJson_eq_ok_iff (hv.of_mem_items hw)
  unfold Draft.put Draft.fill Assoc.only
  split
  case h_3 => simp_all [kinds, @eq_comm _ _ d', @eq_comm _ _ name]
  all_goals simp [kinds, Decode.map_string_eq_ok_iff, Decode.map_list_eq_ok_iff hvalues]

theorem fills : Decode.Fills form kinds {} Draft.put Draft.finish Draft.fill ofParts where
  names := rfl
  nodup := by decide
  fill_none _ := rfl
  fill_fill d name v part h := by simp only [Draft.fill, Assoc.slot_fill h]
  put d name _ hv := d.put_eq_ok_iff name hv
  finish part a := by
    have hrequired : kinds.take form.required = [("name", Json.isString)] := rfl
    rw [hrequired]
    unfold Draft.finish Draft.fill ofParts Decode.required
    cases hname : part "name" <;> simp [hname, bind, Except.bind, pure, Except.pure, @eq_comm _ _ a]

theorem ofJson_eq_ok_iff {v : Json} (hv : v.Ordered) {e : Enum} :
    ofJson v = .ok e ↔ v.isEnum = true ∧ e = describedBy v := fills.record_eq_ok_iff hv

end Enum

/-! ### Documents -/

namespace Document

/-- The fields of a document, of which the models are required. -/
def kinds : List (String × (Json → Bool)) :=
  [("models", Json.isArrayOf Json.isModel), ("enums", Json.isArrayOf Json.isEnum)]

/-- The document that has these parts, with no enums if they are missing. -/
def ofParts (part : String → Option Json) : Document where
  models := ((part "models").map fun v => v.items.map Model.describedBy).getD []
  enums := ((part "enums").map fun v => v.items.map Enum.describedBy).getD []

end Document

def Json.isDocument (v : Json) : Bool := v.isRecord Document.kinds 1

/-- The document that a value describes. -/
def Document.describedBy (v : Json) : Document := .ofParts (v.part? (Document.kinds.map Prod.fst))

namespace Document

/-- The draft with these parts in place of its own. -/
def Draft.fill (d : Draft) (part : String → Option Json) : Draft where
  models := ((part "models").map fun v => some (v.items.map Model.describedBy)).getD d.models
  enums := ((part "enums").map fun v => v.items.map Enum.describedBy).getD d.enums

theorem Draft.put_eq_ok_iff (d : Draft) (name : String) {v : Json} (hv : v.Ordered) (d' : Draft) :
    d.put name v = .ok d' ↔ (∀ f ∈ kinds, f.1 = name → f.2 v = true) ∧ d' = d.fill (Assoc.only name v) := by
  have hmodels : ∀ w ∈ v.items, ∀ m, Model.ofJson w = .ok m ↔ w.isModel = true ∧ m = .describedBy w :=
    fun _ hw _ => Model.ofJson_eq_ok_iff (hv.of_mem_items hw)
  have henums : ∀ w ∈ v.items, ∀ e, Enum.ofJson w = .ok e ↔ w.isEnum = true ∧ e = .describedBy w :=
    fun _ hw _ => Enum.ofJson_eq_ok_iff (hv.of_mem_items hw)
  unfold Draft.put Draft.fill Assoc.only
  split
  case h_3 => simp_all [kinds, @eq_comm _ _ d', @eq_comm _ _ name]
  all_goals simp [kinds, Decode.map_list_eq_ok_iff hmodels, Decode.map_list_eq_ok_iff henums]

theorem fills : Decode.Fills form kinds {} Draft.put Draft.finish Draft.fill ofParts where
  names := rfl
  nodup := by decide
  fill_none _ := rfl
  fill_fill d name v part h := by simp only [Draft.fill, Assoc.slot_fill h]
  put d name _ hv := d.put_eq_ok_iff name hv
  finish part a := by
    have hrequired : kinds.take form.required = [("models", Json.isArrayOf Json.isModel)] := rfl
    rw [hrequired]
    unfold Draft.finish Draft.fill ofParts Decode.required
    cases hmodels : part "models" <;> simp [hmodels, bind, Except.bind, pure, Except.pure, @eq_comm _ _ a]

theorem ofJson_eq_ok_iff {v : Json} (hv : v.Ordered) {d : Document} :
    ofJson v = .ok d ↔ v.isDocument = true ∧ d = describedBy v := fills.record_eq_ok_iff hv

theorem ordered_unwrap {v : Json} (hv : v.Ordered) : (unwrap v).Ordered := by
  unfold unwrap
  cases h : v.member? "datamodel" with
  | none => exact hv
  | some w => exact hv.member? h

/-- A text that writes a value is read as a document exactly when the value, or what it holds under `datamodel`, is
    one. It is then the document that is described there. -/
theorem parse_eq_ok_iff {text : String} {v : Json} (h : Json.parse text = .ok v) (d : Document) :
    parse text = .ok d ↔ (unwrap v.canonical).isDocument = true ∧ d = describedBy (unwrap v.canonical) := by
  rw [← ofJson_eq_ok_iff (ordered_unwrap v.ordered_canonical)]
  simp only [parse, h, ofValue]
  cases ofJson (unwrap v.canonical) <;> simp

open Json in
theorem parse_eq_ok_iff_cuid :
    Json.parse "\x7b\"datamodel\":[[[\"A\",[[\"id\",\"Int\",false,true,true,true,\x7b\"name\":\"cuid\"\x7d]]]]]\x7d" =
      .ok (.object [("datamodel", .array [.array [.array [.string "A", .array [.array [.string "id", .string "Int",
        .bool false, .bool true, .bool true, .bool true, .object [("name", .string "cuid")]]]]]])]) ∧
    parse "\x7b\"datamodel\":[[[\"A\",[[\"id\",\"Int\",false,true,true,true,\x7b\"name\":\"cuid\"\x7d]]]]]\x7d" =
      .ok ⟨[⟨"A", [⟨"id", "Int", false, true, true, true, some (.function "cuid" [])⟩]⟩], []⟩ := by
  refine ⟨?read, (parse_eq_ok_iff ?read _).mpr ⟨rfl, rfl⟩⟩
  simp [Json.parse, Reading.run, Reading.start, Reading.step, Reading.takeValue, Reading.takeKey,
    Reading.takeSeparator, Reading.opened, Reading.maxDepth, Reading.complete, Reading.close, Reading.finish, isSpace,
    scanToken, scanToken.word, scanString, scanWord, scanWord.go]

end Document

end SchemaForge
