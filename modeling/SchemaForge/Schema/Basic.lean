import SchemaForge.Scalar
import SchemaForge.References

/-!
Schema trees. A leaf is a scalar, the name of an enum, or a placeholder for a name that has not been resolved. The
traversals visit the properties of an object in their order and go into every nested object.
-/

namespace SchemaForge

mutual

inductive Expr where
  | scalar (s : Scalar)
  /-- A name that stands for a model or an enum. -/
  | placeholder (name : String)
  /-- An enum, written as its identifier. -/
  | enumRef (name : String)
  | array (item : Expr)
  | optional (value : Expr)
  | object (schema : ObjectSchema)

/-- A property of an object schema. -/
structure Property where
  name : String
  expr : Expr

/-- An object schema: its identifier without the leading mark, its properties in order, and whether it admits
    others. -/
structure ObjectSchema where
  id : String
  properties : List Property
  additionalProperties : Bool := false

end

instance : Inhabited Expr := ⟨.scalar .json⟩

namespace Expr

def isOptional : Expr → Bool
  | optional _ => true
  | _ => false

end Expr

/-! ### Placeholders -/

mutual

/-- Whether the tree holds a placeholder of this name. -/
def Expr.references : Expr → String → Bool
  | .placeholder n, name => n = name
  | .array e, name => e.references name
  | .optional e, name => e.references name
  | .object ⟨_, ps, _⟩, name => Property.anyReferences ps name
  | .scalar _, _ => false
  | .enumRef _, _ => false

def Property.anyReferences : List Property → String → Bool
  | [], _ => false
  | ⟨_, e⟩ :: ps, name => e.references name || Property.anyReferences ps name

end

mutual

/-- Adds the names of the placeholders to a list, in the order of the tree. -/
def Expr.collectPlaceholders : Expr → References → References
  | .placeholder n, into => into.insert n
  | .array e, into => e.collectPlaceholders into
  | .optional e, into => e.collectPlaceholders into
  | .object ⟨_, ps, _⟩, into => Property.collectPlaceholders ps into
  | .scalar _, into => into
  | .enumRef _, into => into

def Property.collectPlaceholders : List Property → References → References
  | [], into => into
  | ⟨_, e⟩ :: ps, into => Property.collectPlaceholders ps (e.collectPlaceholders into)

end

mutual

/-- Puts `replacement` in the place of every placeholder of this name, without looking into what it puts there;
    also how many there were. -/
def Expr.substitute : Expr → String → Expr → Expr × Nat
  | .placeholder n, name, replacement => if n = name then (replacement, 1) else (.placeholder n, 0)
  | .array e, name, replacement =>
    let (e, count) := e.substitute name replacement
    (.array e, count)
  | .optional e, name, replacement =>
    let (e, count) := e.substitute name replacement
    (.optional e, count)
  | .object ⟨id, ps, additional⟩, name, replacement =>
    let (ps, count) := Property.substitute ps name replacement
    (.object ⟨id, ps, additional⟩, count)
  | .scalar s, _, _ => (.scalar s, 0)
  | .enumRef n, _, _ => (.enumRef n, 0)

def Property.substitute : List Property → String → Expr → List Property × Nat
  | [], _, _ => ([], 0)
  | ⟨n, e⟩ :: ps, name, replacement =>
    let (e, count) := e.substitute name replacement
    let (ps, rest) := Property.substitute ps name replacement
    (⟨n, e⟩ :: ps, count + rest)

end

mutual

/-- The names of the placeholders in the order of the tree, each as often as it occurs. -/
def Expr.occurrences : Expr → List String
  | .placeholder n => [n]
  | .array e => e.occurrences
  | .optional e => e.occurrences
  | .object ⟨_, ps, _⟩ => Property.occurrences ps
  | .scalar _ => []
  | .enumRef _ => []

def Property.occurrences : List Property → List String
  | [] => []
  | ⟨_, e⟩ :: ps => e.occurrences ++ Property.occurrences ps

end

mutual

/-- The names of the enums in the order of the tree, each as often as it occurs. -/
def Expr.enumNames : Expr → List String
  | .enumRef n => [n]
  | .array e => e.enumNames
  | .optional e => e.enumNames
  | .object ⟨_, ps, _⟩ => Property.enumNames ps
  | .scalar _ => []
  | .placeholder _ => []

def Property.enumNames : List Property → List String
  | [] => []
  | ⟨_, e⟩ :: ps => e.enumNames ++ Property.enumNames ps

end

namespace ObjectSchema

/-- The first property of this name. -/
def property? (o : ObjectSchema) (name : String) : Option Property :=
  o.properties.find? fun p => p.name = name

def references (o : ObjectSchema) (name : String) : Bool := Property.anyReferences o.properties name

def collectPlaceholders (o : ObjectSchema) (into : References) : References :=
  Property.collectPlaceholders o.properties into

/-- The names of the placeholders, each once, in the order in which they are first met. -/
def placeholders (o : ObjectSchema) : References := o.collectPlaceholders .empty

def occurrences (o : ObjectSchema) : List String := Property.occurrences o.properties

def enumNames (o : ObjectSchema) : List String := Property.enumNames o.properties

/-- Puts an expression in the place of every placeholder of this name; also how many there were. -/
def substitute (o : ObjectSchema) (name : String) (replacement : Expr) : ObjectSchema × Nat :=
  let (ps, count) := Property.substitute o.properties name replacement
  (⟨o.id, ps, o.additionalProperties⟩, count)

/-- The schema after a substitution. -/
def replace (o : ObjectSchema) (name : String) (replacement : Expr) : ObjectSchema :=
  (o.substitute name replacement).1

end ObjectSchema

end SchemaForge
