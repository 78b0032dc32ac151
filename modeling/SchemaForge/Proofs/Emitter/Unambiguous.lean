import SchemaForge.Proofs.Emitter.Opening
import SchemaForge.Proofs.Text.Lines
import SchemaForge.Proofs.Text.Literal

/-! The text of a schema determines the schema, up to scalars with one expression. The opening of an expression tells
    its kind, and what follows ends by itself: names at the first character that is no part of a word,
    identifiers at their closing quote, and properties at a brace that stands one level further out than they do. -/

namespace SchemaForge

mutual

/-- The names in a tree, of properties, enums and placeholders, in its order. -/
def Expr.names : Expr → List String
  | .placeholder n => [n]
  | .enumRef n => [n]
  | .array e => e.names
  | .optional e => e.names
  | .object ⟨_, ps, _⟩ => Property.names ps
  | .scalar _ => []

def Property.names : List Property → List String
  | [] => []
  | ⟨n, e⟩ :: ps => n :: (e.names ++ Property.names ps)

end

def ObjectSchema.names (o : ObjectSchema) : List String := Property.names o.properties

theorem Expr.names_object (o : ObjectSchema) : (Expr.object o).names = o.names := by
  obtain ⟨id, ps, additional⟩ := o
  rfl

/-- The scalars are equal, or both are written as a number, or both as a text. -/
def Scalar.Alike (s t : Scalar) : Prop :=
  s = t ∨ (s ∈ [int, float, decimal] ∧ t ∈ [int, float, decimal]) ∨
    (s ∈ [string, dateTime, date] ∧ t ∈ [string, dateTime, date])

instance (s t : Scalar) : Decidable (s.Alike t) := inferInstanceAs (Decidable (_ ∨ _))

/-- Scalars have one built-in expression exactly when they are alike. -/
theorem Scalar.builtin_eq_iff_alike {s t : Scalar} : s.builtin = t.builtin ↔ s.Alike t := by
  cases s <;> cases t <;> decide

mutual

/-- The trees are equal but for scalars that are alike. -/
inductive Expr.Alike : Expr → Expr → Prop
  | scalar {s t : Scalar} : s.Alike t → Expr.Alike (.scalar s) (.scalar t)
  | placeholder (name : String) : Expr.Alike (.placeholder name) (.placeholder name)
  | enumRef (name : String) : Expr.Alike (.enumRef name) (.enumRef name)
  | array {x y : Expr} : Expr.Alike x y → Expr.Alike (.array x) (.array y)
  | optional {x y : Expr} : Expr.Alike x y → Expr.Alike (.optional x) (.optional y)
  | object {id : String} {ps qs : List Property} {additional : Bool} : Property.Alike ps qs →
    Expr.Alike (.object ⟨id, ps, additional⟩) (.object ⟨id, qs, additional⟩)

inductive Property.Alike : List Property → List Property → Prop
  | nil : Property.Alike [] []
  | cons {name : String} {x y : Expr} {ps qs : List Property} : Expr.Alike x y → Property.Alike ps qs →
    Property.Alike (⟨name, x⟩ :: ps) (⟨name, y⟩ :: qs)

end

def ObjectSchema.Alike (o o' : ObjectSchema) : Prop := Expr.Alike (.object o) (.object o')

namespace Emitter
variable {e : Emitter}

/-! ### Where the parts end -/

/-- What may come after an expression: a comma or a closing bracket. -/
def Ends (r : List Char) : Prop := ∃ rest, r = ',' :: rest ∨ r = ')' :: rest

theorem Ends.afterWord {r : List Char} (hr : Ends r) {name : String} (hname : Text.IsWord name) :
    Text.afterWord (name.toList ++ r) = some ',' ∨ Text.afterWord (name.toList ++ r) = some ')' := by
  obtain ⟨rest, rfl | rfl⟩ := hr
  · exact Or.inl (Text.afterWord_word hname (by decide) rest)
  · exact Or.inr (Text.afterWord_word hname (by decide) rest)

/-- An enum's name ends where the text after the expression starts. -/
theorem enum_inj {a b : String} (ha : Text.IsWord a) (hb : Text.IsWord b) {r r' : List Char} (hr : Ends r)
    (hr' : Ends r') (h : a.toList ++ r = b.toList ++ r') : a = b := by
  obtain ⟨rest, rfl | rfl⟩ := hr <;> obtain ⟨rest', rfl | rfl⟩ := hr' <;>
    exact (Text.word_inj ha hb (by decide) (by decide) h).1

theorem enum_ne_fixed {name : String} (hname : Text.IsWord name) {a : Opening} (ha : a ∈ Opening.fixed)
    {r : List Char} (hr : Ends r) (r' : List Char) : name.toList ++ r ≠ a.text.toList ++ r' := by
  intro h
  have hword := hr.afterWord hname
  rw [h] at hword
  rcases Opening.afterWord_fixed a ha r' with hfixed | hfixed <;> rw [hfixed] at hword <;>
    exact absurd hword (by decide)

/-- Of two expressions whose texts agree up to their ends the second has the opening of the first, and the same text
    after it. -/
theorem opens_of_text (he : e.typeMap.overrides = []) {x y : Expr} (hx : ∀ n ∈ x.names, Text.IsWord n)
    (hy : ∀ n ∈ y.names, Text.IsWord n) {depth : Nat} {r r' : List Char} (hr : Ends r) (hr' : Ends r')
    (h : (e.expr x depth).toList ++ r = (e.expr y depth).toList ++ r') :
    x.opening.Opens y ∧ e.tail x depth ++ r = e.tail y depth ++ r' := by
  have hopening : x.opening = y.opening := by
    rcases x.opening_fixed with ⟨a, rfl⟩ | hxf <;> rcases y.opening_fixed with ⟨b, rfl⟩ | hyf
    · rw [Emitter.expr, Emitter.expr] at h
      exact congrArg Opening.enum (enum_inj (hx a List.mem_cons_self) (hy b List.mem_cons_self) hr hr' h)
    · rw [Emitter.expr, toList_expr he, List.append_assoc] at h
      exact absurd h (enum_ne_fixed (hx a List.mem_cons_self) hyf hr _)
    · rw [Emitter.expr, toList_expr he, List.append_assoc] at h
      exact absurd h.symm (enum_ne_fixed (hy b List.mem_cons_self) hxf hr' _)
    · -- Both openings start one text, so one is the start of the other.
      rw [toList_expr he, toList_expr he, List.append_assoc, List.append_assoc] at h
      have hyx : y.opening.text.toList <+: x.opening.text.toList ++ (e.tail x depth ++ r) := ⟨_, h.symm⟩
      rcases List.prefix_or_prefix_of_prefix (List.prefix_append _ _) hyx with hprefix | hprefix
      · exact Opening.eq_of_prefix _ hxf _ hyf hprefix
      · exact (Opening.eq_of_prefix _ hyf _ hxf hprefix).symm
  refine ⟨hopening ▸ y.opens_opening, ?_⟩
  rw [toList_expr he, toList_expr he, List.append_assoc, List.append_assoc, hopening] at h
  exact List.append_cancel_left h

theorem optionsTail_inj {id id' : String} {additional additional' : Bool} {depth : Nat} {r r' : List Char}
    (h : e.optionsTail id additional depth ++ r = e.optionsTail id' additional' depth ++ r') :
    id = id' ∧ additional = additional' ∧ r = r' := by
  have htrue : (toString true).toList = 't' :: "rue".toList := by decide
  have hfalse : (toString false).toList = 'f' :: "alse".toList := by decide
  simp only [optionsTail, List.append_assoc, List.cons_append, List.append_cancel_left_eq] at h
  obtain ⟨rfl, hrest⟩ := Literal.escape_inj h
  simp only [List.append_cancel_left_eq] at hrest
  cases additional <;> cases additional'
  · exact ⟨rfl, rfl, by simpa only [List.append_cancel_left_eq] using hrest⟩
  · rw [htrue, hfalse] at hrest
    exact absurd (List.cons.inj hrest).1 (by decide)
  · rw [htrue, hfalse] at hrest
    exact absurd (List.cons.inj hrest).1 (by decide)
  · exact ⟨rfl, rfl, by simpa only [List.append_cancel_left_eq] using hrest⟩

/-- A property stands one level further in than the brace that ends the properties. -/
theorem property_ne_brace (i : Indent) (depth : Nat) (line rest : List Char) :
    (i.text (depth + 1)).toList ++ line ≠ (i.text depth).toList ++ '\x7d' :: rest := by
  intro h
  rw [i.text_add 1, String.toList_append, List.append_assoc] at h
  replace h := List.append_cancel_left h
  have hunit : ∃ c cs, (i.text 1).toList = c :: cs ∧ c ≠ '\x7d' := by
    cases i
    · exact ⟨'\t', [], by decide, by decide⟩
    · exact ⟨' ', [' '], by decide, by decide⟩
    · exact ⟨' ', [' ', ' ', ' '], by decide, by decide⟩
  obtain ⟨c, cs, hunit, hc⟩ := hunit
  rw [hunit] at h
  exact hc (List.cons.inj h).1

/-! ### Texts and trees -/

mutual

-- By induction on the first tree. The rest of the text is general, as the text of a part is followed by what ends the
-- whole, and the induction also yields that the rests agree.
theorem alike_of_text (he : e.typeMap.overrides = []) : ∀ (x y : Expr) {depth : Nat} {r r' : List Char},
    (∀ n ∈ x.names, Text.IsWord n) → (∀ n ∈ y.names, Text.IsWord n) → Ends r → Ends r' →
    (e.expr x depth).toList ++ r = (e.expr y depth).toList ++ r' → Expr.Alike x y ∧ r = r'
  | .scalar s, y, _, _, _, hx, hy, hr, hr', h => by
    obtain ⟨⟨t, rfl, hbuiltin⟩, htail⟩ := opens_of_text he hx hy hr hr' h
    exact ⟨.scalar (Scalar.builtin_eq_iff_alike.mp hbuiltin), htail⟩
  | .enumRef name, y, _, _, _, hx, hy, hr, hr', h => by
    obtain ⟨hopens, htail⟩ := opens_of_text he hx hy hr hr' h
    obtain rfl : y = .enumRef name := hopens
    exact ⟨.enumRef name, htail⟩
  | .placeholder name, y, _, _, _, hx, hy, hr, hr', h => by
    obtain ⟨⟨name', rfl⟩, htail⟩ := opens_of_text he hx hy hr hr' h
    have hcolons : "::".toList = [':', ':'] := by decide
    simp only [tail, hcolons, List.append_assoc, List.cons_append, List.nil_append] at htail
    obtain ⟨rfl, hrest⟩ := Text.word_inj (hx name List.mem_cons_self) (hy name' List.mem_cons_self) (by decide)
      (by decide) htail
    exact ⟨.placeholder name, (List.cons.inj (List.cons.inj hrest).2).2⟩
  | .array item, y, _, _, _, hx, hy, hr, hr', h => by
    obtain ⟨⟨item', rfl⟩, htail⟩ := opens_of_text he hx hy hr hr' h
    have hbracket : ")".toList = [')'] := by decide
    simp only [tail, hbracket, List.append_assoc, List.cons_append, List.nil_append] at htail
    obtain ⟨hitem, hrest⟩ := alike_of_text he item item' hx hy ⟨_, Or.inr rfl⟩ ⟨_, Or.inr rfl⟩ htail
    exact ⟨.array hitem, (List.cons.inj hrest).2⟩
  | .optional value, y, _, _, _, hx, hy, hr, hr', h => by
    obtain ⟨⟨value', rfl⟩, htail⟩ := opens_of_text he hx hy hr hr' h
    have hbracket : ")".toList = [')'] := by decide
    simp only [tail, hbracket, List.append_assoc, List.cons_append, List.nil_append] at htail
    obtain ⟨hvalue, hrest⟩ := alike_of_text he value value' hx hy ⟨_, Or.inr rfl⟩ ⟨_, Or.inr rfl⟩ htail
    exact ⟨.optional hvalue, (List.cons.inj hrest).2⟩
  | .object ⟨id, [], additional⟩, y, _, _, _, hx, hy, hr, hr', h => by
    obtain ⟨⟨id', additional', rfl⟩, htail⟩ := opens_of_text he hx hy hr hr' h
    obtain ⟨rfl, rfl, hrest⟩ := optionsTail_inj htail
    exact ⟨.object .nil, hrest⟩
  | .object ⟨id, p :: ps, additional⟩, y, depth, _, _, hx, hy, hr, hr', h => by
    obtain ⟨⟨id', q, qs, additional', rfl⟩, htail⟩ := opens_of_text he hx hy hr hr' h
    simp only [tail, List.append_assoc, List.cons_append] at htail
    obtain ⟨hps, hrest⟩ := alike_of_lines he (p :: ps) (q :: qs) hx hy htail
    obtain ⟨rfl, rfl, hend⟩ := optionsTail_inj (List.append_cancel_left hrest)
    exact ⟨.object hps, hend⟩

theorem alike_of_lines (he : e.typeMap.overrides = []) : ∀ (ps qs : List Property) {depth : Nat} {r r' : List Char},
    (∀ n ∈ Property.names ps, Text.IsWord n) → (∀ n ∈ Property.names qs, Text.IsWord n) →
    (e.propertyLines ps (depth + 1)).toList ++ ((e.indent.text depth).toList ++ '\x7d' :: r) =
      (e.propertyLines qs (depth + 1)).toList ++ ((e.indent.text depth).toList ++ '\x7d' :: r') →
    Property.Alike ps qs ∧ r = r'
  | [], [], _, _, _, _, _, h => by
    rw [List.append_cancel_left_eq, List.append_cancel_left_eq] at h
    exact ⟨.nil, (List.cons.inj h).2⟩
  -- Where one list ends before the other, a brace would stand in the place of a property.
  | [], ⟨_, _⟩ :: _, depth, _, _, _, _, h => by
    have hnil : (e.propertyLines [] (depth + 1)).toList = [] := by
      rw [Emitter.propertyLines]
      decide
    rw [hnil, toList_propertyLines, List.nil_append, List.append_assoc] at h
    exact absurd h.symm (property_ne_brace _ _ _ _)
  | ⟨_, _⟩ :: _, [], depth, _, _, _, _, h => by
    have hnil : (e.propertyLines [] (depth + 1)).toList = [] := by
      rw [Emitter.propertyLines]
      decide
    rw [hnil, toList_propertyLines, List.nil_append, List.append_assoc] at h
    exact absurd h (property_ne_brace _ _ _ _)
  | ⟨name, x⟩ :: ps, ⟨name', y⟩ :: qs, _, _, _, hps, hqs, h => by
    obtain ⟨hname, hwords⟩ := List.forall_mem_cons.mp hps
    obtain ⟨hname', hwords'⟩ := List.forall_mem_cons.mp hqs
    obtain ⟨hx, hxs⟩ := List.forall_mem_append.mp hwords
    obtain ⟨hy, hys⟩ := List.forall_mem_append.mp hwords'
    simp only [toList_propertyLines, List.append_assoc, List.cons_append, List.append_cancel_left_eq] at h
    obtain ⟨rfl, hvalues⟩ := Text.word_inj hname hname' (by decide) (by decide) h
    have hexprs := (List.cons.inj (List.cons.inj hvalues).2).2
    obtain ⟨hxy, hcommas⟩ := alike_of_text he x y hx hy ⟨_, Or.inl rfl⟩ ⟨_, Or.inl rfl⟩ hexprs
    have hlines := (List.cons.inj (List.cons.inj hcommas).2).2
    obtain ⟨hpsqs, hrest⟩ := alike_of_lines he ps qs hxs hys hlines
    exact ⟨.cons hxy hpsqs, hrest⟩

end

mutual

theorem text_of_alike (he : e.typeMap.overrides = []) {x y : Expr} (depth : Nat) :
    Expr.Alike x y → e.expr x depth = e.expr y depth
  | .scalar h => by
    rw [Emitter.expr, Emitter.expr, expression_of_no_overrides he, expression_of_no_overrides he,
      Scalar.builtin_eq_iff_alike.mpr h]
  | .placeholder _ => rfl
  | .enumRef _ => rfl
  | .array h => by rw [Emitter.expr, Emitter.expr, text_of_alike he depth h]
  | .optional h => by rw [Emitter.expr, Emitter.expr, text_of_alike he depth h]
  | .object .nil => rfl
  | .object (.cons h hps) => by
    rw [Emitter.expr, Emitter.expr, Emitter.propertyBlock, Emitter.propertyBlock,
      lines_of_alike he (depth + 1) (.cons h hps)]

theorem lines_of_alike (he : e.typeMap.overrides = []) {ps qs : List Property} (depth : Nat) :
    Property.Alike ps qs → e.propertyLines ps depth = e.propertyLines qs depth
  | .nil => rfl
  | .cons h hps => by
    rw [Emitter.propertyLines, Emitter.propertyLines, text_of_alike he depth h, lines_of_alike he depth hps]

end

/-- Schemas whose names are words have the same text at a depth exactly when they are equal but for scalars that
    have the same expression. -/
theorem object_eq_iff_alike (he : e.typeMap.overrides = []) (depth : Nat) {o o' : ObjectSchema}
    (ho : ∀ n ∈ o.names, Text.IsWord n) (ho' : ∀ n ∈ o'.names, Text.IsWord n) :
    e.object o depth = e.object o' depth ↔ o.Alike o' := by
  refine ⟨fun h => ?_, text_of_alike he depth⟩
  have htext : (e.expr (.object o) depth).toList ++ [','] = (e.expr (.object o') depth).toList ++ [','] :=
    congrArg (fun s : String => s.toList ++ [',']) h
  rw [← Expr.names_object] at ho ho'
  exact (alike_of_text he (.object o) (.object o') ho ho' ⟨[], Or.inl rfl⟩ ⟨[], Or.inl rfl⟩ htext).1

/-- Numbers look alike, and a value of any form is not confused with an inlined model without fields. -/
theorem object_eq_iff_alike_row :
    let e : Emitter := {}
    let row : Expr → ObjectSchema := fun x => ⟨"Row_model", [⟨"id", x⟩, ⟨"state", .array (.enumRef "State")⟩], false⟩
    e.typeMap.overrides = [] ∧ (∀ n ∈ (row (.scalar .int)).names, Text.IsWord n) ∧
      e.object (row (.scalar .int)) 0 = e.object (row (.scalar .decimal)) 0 ∧
      e.object (row (.scalar .json)) 0 ≠ e.object (row (.object ⟨"Tag_dep_2_model", [], true⟩)) 0 := by
  intro e row
  have hnames : ∀ x : Expr, x.names = [] → ∀ n ∈ (row x).names, Text.IsWord n := by
    intro x hx
    have hrow : (row x).names = ["id", "state", "State"] := by
      simp [row, ObjectSchema.names, Property.names, Expr.names, hx]
    rw [hrow]
    decide
  refine ⟨rfl, hnames _ rfl, ?_, fun h => ?_⟩
  · exact (object_eq_iff_alike rfl 0 (hnames _ rfl) (hnames _ rfl)).mpr
      (.object (.cons (.scalar (by decide)) (.cons (.array (.enumRef "State")) .nil)))
  · have halike := (object_eq_iff_alike rfl 0 (hnames _ rfl) (hnames _ rfl)).mp h
    cases halike with
    | object hps =>
      cases hps with
      | cons hjson _ => cases hjson

end Emitter

end SchemaForge
