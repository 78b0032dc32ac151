import SchemaForge.Emitter
import SchemaForge.Proofs.Text.Word

/-! The text of a schema expression, taken apart. It starts with an opening that tells the kind of the expression,
    and no opening is the start of another. What follows depends on the names, the identifiers and the smaller
    expressions in it. -/

namespace SchemaForge

/-! ### Openings -/

/-- How the text of an expression starts: all of a scalar or an enum, and else what comes before a part that depends
    on more than the kind. -/
inductive Opening where
  | scalar (text : String)
  | enum (name : String)
  | placeholder | array | optional | emptyObject | object
  deriving DecidableEq

namespace Opening

def text : Opening → String
  | scalar text => text
  | enum name => name
  | placeholder => "::"
  | array => "Type.Array("
  | optional => "Type.Optional("
  | emptyObject => "Type.Object(\x7b\x7d, \x7b\n"
  | object => "Type.Object(\x7b\n"

/-- The openings that are not a name. -/
def fixed : List Opening :=
  Scalar.all.map (fun s => scalar s.builtin) ++ [placeholder, array, optional, emptyObject, object]

/-- The expressions with this opening. -/
def Opens : Opening → Expr → Prop
  | scalar text, x => ∃ s : Scalar, x = .scalar s ∧ text = s.builtin
  | enum name, x => x = .enumRef name
  | placeholder, x => ∃ name, x = .placeholder name
  | array, x => ∃ item, x = .array item
  | optional, x => ∃ value, x = .optional value
  | emptyObject, x => ∃ id additional, x = .object ⟨id, [], additional⟩
  | object, x => ∃ id p ps additional, x = .object ⟨id, p :: ps, additional⟩

theorem eq_of_prefix : ∀ a ∈ fixed, ∀ b ∈ fixed, a.text.toList <+: b.text.toList → a = b := by decide +kernel

/-- A fixed opening is no word, and it is told from one by the character where the word ends. -/
theorem afterWord_fixed : ∀ a ∈ fixed, ∀ r,
    Text.afterWord (a.text.toList ++ r) = some '.' ∨ Text.afterWord (a.text.toList ++ r) = some ':' := by
  have hall : ∀ a ∈ fixed, Text.afterWord a.text.toList = some '.' ∨ Text.afterWord a.text.toList = some ':' := by
    decide +kernel
  intro a ha r
  exact (hall a ha).imp (Text.afterWord_append · r) (Text.afterWord_append · r)

end Opening

namespace Expr

def opening : Expr → Opening
  | .scalar s => .scalar s.builtin
  | .enumRef name => .enum name
  | .placeholder _ => .placeholder
  | .array _ => .array
  | .optional _ => .optional
  | .object ⟨_, [], _⟩ => .emptyObject
  | .object ⟨_, _ :: _, _⟩ => .object

theorem opens_opening : ∀ x : Expr, x.opening.Opens x
  | .scalar s => ⟨s, rfl, rfl⟩
  | .enumRef _ => rfl
  | .placeholder name => ⟨name, rfl⟩
  | .array item => ⟨item, rfl⟩
  | .optional value => ⟨value, rfl⟩
  | .object ⟨id, [], additional⟩ => ⟨id, additional, rfl⟩
  | .object ⟨id, p :: ps, additional⟩ => ⟨id, p, ps, additional, rfl⟩

theorem opening_fixed : ∀ x : Expr, (∃ name, x = .enumRef name) ∨ x.opening ∈ Opening.fixed
  | .scalar s => Or.inr (List.mem_append_left _ (List.mem_map_of_mem (by cases s <;> decide)))
  | .enumRef name => Or.inl ⟨name, rfl⟩
  | .placeholder _ => Or.inr (show Opening.placeholder ∈ Opening.fixed by decide)
  | .array _ => Or.inr (show Opening.array ∈ Opening.fixed by decide)
  | .optional _ => Or.inr (show Opening.optional ∈ Opening.fixed by decide)
  | .object ⟨_, [], _⟩ => Or.inr (show Opening.emptyObject ∈ Opening.fixed by decide)
  | .object ⟨_, _ :: _, _⟩ => Or.inr (show Opening.object ∈ Opening.fixed by decide)

end Expr

/-! ### What follows an opening -/

namespace Emitter
variable {e : Emitter}

/-- The options of an object after their brace and line break, with the brackets that end the object. -/
def optionsTail (e : Emitter) (id : String) (additional : Bool) (depth : Nat) : List Char :=
  (e.indent.text (depth + 1)).toList ++ ("$id: '#".toList ++ ((Literal.escape id).toList ++ '\x27' :: (",\n".toList ++
    ((e.indent.text (depth + 1)).toList ++ ("additionalProperties: ".toList ++ ((toString additional).toList ++
      (",\n".toList ++ ((e.indent.text depth).toList ++ "\x7d)".toList))))))))

/-- The text of an expression after its opening. -/
def tail (e : Emitter) : Expr → Nat → List Char
  | .scalar _, _ => []
  | .enumRef _, _ => []
  | .placeholder name, _ => name.toList ++ "::".toList
  | .array item, depth => (e.expr item depth).toList ++ ")".toList
  | .optional value, depth => (e.expr value depth).toList ++ ")".toList
  | .object ⟨id, [], additional⟩, depth => e.optionsTail id additional depth
  | .object ⟨id, p :: ps, additional⟩, depth =>
    (e.propertyLines (p :: ps) (depth + 1)).toList ++ ((e.indent.text depth).toList ++
      '\x7d' :: (", \x7b\n".toList ++ e.optionsTail id additional depth))

theorem expression_of_no_overrides (he : e.typeMap.overrides = []) (s : Scalar) :
    e.typeMap.expression s = s.builtin := by
  unfold TypeMap.expression
  rw [he, List.lookup_nil]

theorem objectOptions_eq (id : String) (additional : Bool) (depth : Nat) : e.objectOptions id additional depth =
    "\x7b\n" ++ e.indent.text (depth + 1) ++ "$id: '#" ++ Literal.escape id ++ "',\n" ++
      e.indent.text (depth + 1) ++ "additionalProperties: " ++ toString additional ++ ",\n" ++
      e.indent.text depth ++ "\x7d" := rfl

theorem toList_options (id : String) (additional : Bool) (depth : Nat) :
    (e.objectOptions id additional depth).toList ++ ")".toList =
      "\x7b\n".toList ++ e.optionsTail id additional depth := by
  have hquote : "',\n".toList = '\x27' :: ",\n".toList := by simp
  have hclose : "\x7d)".toList = "\x7d".toList ++ ")".toList := by simp
  rw [objectOptions_eq, optionsTail]
  simp only [String.toList_append, List.append_assoc, hquote, hclose, List.cons_append]

/-- The text of an expression is its opening and what follows it. -/
theorem toList_expr (he : e.typeMap.overrides = []) (depth : Nat) :
    ∀ x : Expr, (e.expr x depth).toList = x.opening.text.toList ++ e.tail x depth
  | .scalar s => by
    rw [Emitter.expr, expression_of_no_overrides he, tail, List.append_nil]
    rfl
  | .enumRef name => by
    rw [Emitter.expr, tail, List.append_nil]
    rfl
  | .placeholder name => by
    rw [Emitter.expr, tail]
    simp only [String.toList_append, List.append_assoc]
    rfl
  | .array item => by
    rw [Emitter.expr, tail]
    simp only [String.toList_append, List.append_assoc]
    rfl
  | .optional value => by
    rw [Emitter.expr, tail]
    simp only [String.toList_append, List.append_assoc]
    rfl
  | .object ⟨id, [], additional⟩ => by
    have hopen : Opening.emptyObject.text.toList =
        "Type.Object(".toList ++ ("\x7b\x7d".toList ++ (", ".toList ++ "\x7b\n".toList)) := by decide
    rw [Emitter.expr, Emitter.propertyBlock, tail, Expr.opening, hopen]
    simp only [String.toList_append, List.append_assoc, toList_options]
  | .object ⟨id, p :: ps, additional⟩ => by
    have hopen : Opening.object.text.toList = "Type.Object(".toList ++ "\x7b\n".toList := by decide
    have hclose : ", \x7b\n".toList = ", ".toList ++ "\x7b\n".toList := by decide
    have hbrace : "\x7d".toList = ['\x7d'] := by decide
    rw [Emitter.expr, Emitter.propertyBlock, tail, Expr.opening, hopen, hclose]
    simp only [String.toList_append, List.append_assoc, toList_options, hbrace, List.cons_append, List.nil_append]

theorem toList_propertyLines (name : String) (x : Expr) (ps : List Property) (depth : Nat) :
    (e.propertyLines (⟨name, x⟩ :: ps) depth).toList = (e.indent.text depth).toList ++ (name.toList ++
      ':' :: ' ' :: ((e.expr x depth).toList ++ ',' :: '\n' :: (e.propertyLines ps depth).toList)) := by
  have hcolon : ": ".toList = [':', ' '] := by simp
  have hcomma : ",\n".toList = [',', '\n'] := by simp
  rw [Emitter.propertyLines]
  simp only [String.toList_append, List.append_assoc, hcolon, hcomma, List.cons_append, List.nil_append]

end Emitter

end SchemaForge
