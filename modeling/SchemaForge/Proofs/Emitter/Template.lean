import SchemaForge.Emitter
import SchemaForge.Proofs.Schema.Replacement

/-! The text of a schema as a template. The unit of indentation and the tree fix all of the text but the expressions
    of scalars, which are put into it in the order of the tree. So the text depends on the type map at the scalars of
    the tree alone, and on the line ending not at all. Two type maps that differ at one scalar give different texts
    as soon as the tree has that scalar. -/

namespace SchemaForge

mutual

/-- The scalars of a tree in its order, each as often as it occurs. -/
def Expr.scalars : Expr → List Scalar
  | .scalar s => [s]
  | .array e => e.scalars
  | .optional e => e.scalars
  | .object ⟨_, ps, _⟩ => Property.scalars ps
  | .placeholder _ => []
  | .enumRef _ => []

def Property.scalars : List Property → List Scalar
  | [] => []
  | ⟨_, e⟩ :: ps => e.scalars ++ Property.scalars ps

end

def ObjectSchema.scalars (o : ObjectSchema) : List Scalar := Property.scalars o.properties

theorem Expr.scalars_object (o : ObjectSchema) : (Expr.object o).scalars = o.scalars := by
  obtain ⟨id, ps, additional⟩ := o
  rfl

theorem Property.scalars_eq_flatMap (ps : List Property) : Property.scalars ps = ps.flatMap (·.expr.scalars) := by
  induction ps with
  | nil => rfl
  | cons p ps ih =>
    obtain ⟨_, e⟩ := p
    rw [Property.scalars, ih, List.flatMap_cons]

/-! ### Templates -/

/-- A part of a template: a fixed text, or the place of a scalar's expression. -/
inductive Piece where
  | fixed (text : String)
  | scalar (s : Scalar)

namespace Piece

def scalar? : Piece → Option Scalar
  | scalar s => some s
  | fixed _ => none

def text (m : TypeMap) : Piece → String
  | fixed text => text
  | scalar s => m.expression s

/-- The text of a template under a type map. -/
def fill (m : TypeMap) (pieces : List Piece) : String := String.join (pieces.map (·.text m))

variable {m m' : TypeMap} {pieces : List Piece} {s : Scalar}

theorem fill_cons (p : Piece) (ps : List Piece) : fill m (p :: ps) = p.text m ++ fill m ps := by
  rw [fill, List.map_cons, String.join_cons]
  rfl

theorem fill_append (ps qs : List Piece) : fill m (ps ++ qs) = fill m ps ++ fill m qs := by
  rw [fill, List.map_append, String.join_append]
  rfl

theorem fill_fixed (text : String) : fill m [fixed text] = text := by
  rw [fill_cons, fill, List.map_nil, String.join_nil, String.append_empty]
  rfl

/-- A type map matters only at the scalars of the template. -/
theorem fill_congr (h : ∀ s ∈ pieces.filterMap scalar?, m.expression s = m'.expression s) :
    fill m pieces = fill m' pieces := by
  refine congrArg String.join (List.map_congr_left fun p hp => ?_)
  cases p with
  | fixed text => rfl
  | scalar s => exact h s (List.mem_filterMap.mpr ⟨_, hp, rfl⟩)

/-- Where type maps differ at one scalar, the lengths of the texts differ as often as it occurs. -/
theorem length_fill (h : ∀ t ≠ s, m.expression t = m'.expression t) (pieces : List Piece) :
    (fill m pieces).length + (pieces.filterMap scalar?).count s * (m'.expression s).length =
      (fill m' pieces).length + (pieces.filterMap scalar?).count s * (m.expression s).length := by
  induction pieces with
  | nil => simp [fill]
  | cons p ps ih =>
    simp only [fill_cons, String.length_append]
    cases p with
    | fixed part =>
      rw [List.filterMap_cons_none rfl]
      simp only [text]
      omega
    | scalar t =>
      have hscalar : scalar? (scalar t) = some t := rfl
      rw [List.filterMap_cons_some hscalar]
      by_cases ht : t = s
      · subst ht
        simp only [text, List.count_cons_self, Nat.succ_mul]
        omega
      · simp only [text, List.count_cons_of_ne ht, h t ht]
        omega

/-- Expressions of one length can be read off the texts. -/
theorem expression_eq_of_length (h : ∀ t ≠ s, m.expression t = m'.expression t)
    (hlength : (m.expression s).length = (m'.expression s).length) (hs : s ∈ pieces.filterMap scalar?)
    (hfill : fill m pieces = fill m' pieces) : m.expression s = m'.expression s := by
  induction pieces with
  | nil => cases hs
  | cons p ps ih =>
    have hpiece : (p.text m).toList.length = (p.text m').toList.length := by
      rw [String.length_toList, String.length_toList]
      cases p with
      | fixed text => rfl
      | scalar t =>
        by_cases ht : t = s
        · rw [ht]
          exact hlength
        · exact congrArg String.length (h t ht)
    rw [fill_cons, fill_cons] at hfill
    have hlist := congrArg String.toList hfill
    rw [String.toList_append, String.toList_append] at hlist
    obtain ⟨hfirst, hrest⟩ := List.append_inj hlist hpiece
    cases p with
    | fixed text => exact ih hs (String.toList_injective hrest)
    | scalar t =>
      rcases List.mem_cons.mp hs with rfl | hs
      · exact String.toList_injective hfirst
      · exact ih hs (String.toList_injective hrest)

/-- Type maps that differ at most at one scalar of the template agree there if they give the same text. -/
theorem expression_eq_of_fill_eq (h : ∀ t ≠ s, m.expression t = m'.expression t) (hs : s ∈ pieces.filterMap scalar?)
    (hfill : fill m pieces = fill m' pieces) : m.expression s = m'.expression s := by
  -- The texts are of one length and the scalar occurs, so its expressions are of one length too.
  have hlength := length_fill h pieces
  rw [hfill] at hlength
  have hcount := List.count_pos_iff.mpr hs
  exact expression_eq_of_length h (Nat.eq_of_mul_eq_mul_left hcount (by omega)) hs hfill

end Piece

/-! ### The template of a tree -/

/-- The braces around the lines of an object's properties. -/
def Piece.block (i : Indent) (depth : Nat) (lines : List Piece) : List Piece :=
  if lines.isEmpty then [.fixed "\x7b\x7d"] else .fixed "\x7b\n" :: (lines ++ [.fixed (i.text depth ++ "\x7d")])

mutual

/-- The template of an expression at a depth. -/
def Expr.pieces (i : Indent) : Expr → Nat → List Piece
  | .scalar s, _ => [.scalar s]
  | .placeholder name, _ => [.fixed ("::" ++ name ++ "::")]
  | .enumRef name, _ => [.fixed name]
  | .array item, depth => .fixed "Type.Array(" :: (item.pieces i depth ++ [.fixed ")"])
  | .optional value, depth => .fixed "Type.Optional(" :: (value.pieces i depth ++ [.fixed ")"])
  | .object ⟨id, properties, additional⟩, depth =>
    .fixed "Type.Object(" :: (Piece.block i depth (Property.linePieces i properties (depth + 1)) ++
      [.fixed (", " ++ ({ indent := i } : Emitter).objectOptions id additional depth ++ ")")])

def Property.linePieces (i : Indent) : List Property → Nat → List Piece
  | [], _ => []
  | ⟨name, value⟩ :: ps, depth =>
    .fixed (i.text depth ++ name ++ ": ") ::
      (value.pieces i depth ++ .fixed ",\n" :: Property.linePieces i ps depth)

end

theorem Piece.block_cons (i : Indent) (depth : Nat) (p : Piece) (ps : List Piece) :
    Piece.block i depth (p :: ps) = fixed "\x7b\n" :: (p :: ps ++ [fixed (i.text depth ++ "\x7d")]) := rfl

theorem Piece.fill_block_cons (m : TypeMap) (i : Indent) (depth : Nat) (p : Piece) (ps : List Piece) :
    fill m (Piece.block i depth (p :: ps)) = "\x7b\n" ++ fill m (p :: ps) ++ i.text depth ++ "\x7d" := by
  rw [Piece.block_cons, fill_cons, fill_append, fill_fixed]
  simp only [text, String.append_assoc]

theorem Piece.filterMap_block (i : Indent) (depth : Nat) (lines : List Piece) :
    (Piece.block i depth lines).filterMap scalar? = lines.filterMap scalar? := by
  cases lines with
  | nil => rfl
  | cons p ps =>
    rw [Piece.block_cons, List.filterMap_cons_none rfl, List.filterMap_append]
    exact List.append_nil _

mutual

/-- The scalars of a template are those of the tree. -/
theorem Expr.filterMap_pieces (i : Indent) :
    ∀ (x : Expr) (depth : Nat), (x.pieces i depth).filterMap Piece.scalar? = x.scalars
  | .scalar _, _ => rfl
  | .placeholder _, _ => rfl
  | .enumRef _, _ => rfl
  | .array item, depth => by
    rw [Expr.pieces, List.filterMap_cons_none rfl, List.filterMap_append, Expr.filterMap_pieces i item depth]
    exact List.append_nil _
  | .optional value, depth => by
    rw [Expr.pieces, List.filterMap_cons_none rfl, List.filterMap_append, Expr.filterMap_pieces i value depth]
    exact List.append_nil _
  | .object ⟨id, ps, additional⟩, depth => by
    rw [Expr.pieces, List.filterMap_cons_none rfl, List.filterMap_append, Piece.filterMap_block,
      Property.filterMap_linePieces i ps (depth + 1)]
    exact List.append_nil _

theorem Property.filterMap_linePieces (i : Indent) :
    ∀ (ps : List Property) (depth : Nat), (Property.linePieces i ps depth).filterMap Piece.scalar? = Property.scalars ps
  | [], _ => rfl
  | ⟨name, value⟩ :: ps, depth => by
    rw [Property.linePieces, List.filterMap_cons_none rfl, List.filterMap_append, Expr.filterMap_pieces i value depth,
      List.filterMap_cons_none rfl, Property.filterMap_linePieces i ps depth]
    rfl

end

namespace Emitter
variable {e e' : Emitter}

theorem propertyBlock_eq_fill_of_lines {ps : List Property} {depth : Nat}
    (h : e.propertyLines ps (depth + 1) = Piece.fill e.typeMap (Property.linePieces e.indent ps (depth + 1))) :
    e.propertyBlock ps depth =
      Piece.fill e.typeMap (Piece.block e.indent depth (Property.linePieces e.indent ps (depth + 1))) := by
  cases ps with
  | nil =>
    rw [propertyBlock]
    exact (Piece.fill_fixed _).symm
  | cons p ps =>
    obtain ⟨name, value⟩ := p
    rw [propertyBlock, h, Property.linePieces, Piece.fill_block_cons]

mutual

/-- The text of an expression fills its template. -/
theorem expr_eq_fill (e : Emitter) :
    ∀ (x : Expr) (depth : Nat), e.expr x depth = Piece.fill e.typeMap (x.pieces e.indent depth)
  | .scalar s, _ => by
    rw [Emitter.expr, Expr.pieces, Piece.fill_cons, Piece.fill, List.map_nil, String.join_nil, String.append_empty]
    rfl
  | .placeholder name, _ => by rw [Emitter.expr, Expr.pieces, Piece.fill_fixed]
  | .enumRef name, _ => by rw [Emitter.expr, Expr.pieces, Piece.fill_fixed]
  | .array item, depth => by
    rw [Emitter.expr, Expr.pieces, Piece.fill_cons, Piece.fill_append, ← expr_eq_fill e item depth, Piece.fill_fixed]
    simp only [Piece.text, String.append_assoc]
  | .optional value, depth => by
    rw [Emitter.expr, Expr.pieces, Piece.fill_cons, Piece.fill_append, ← expr_eq_fill e value depth, Piece.fill_fixed]
    simp only [Piece.text, String.append_assoc]
  | .object ⟨id, ps, additional⟩, depth => by
    have hoptions : e.objectOptions id additional depth =
      ({ indent := e.indent } : Emitter).objectOptions id additional depth := rfl
    have hblock := propertyBlock_eq_fill_of_lines (propertyLines_eq_fill e ps (depth + 1))
    rw [Emitter.expr, Expr.pieces, Piece.fill_cons, Piece.fill_append, ← hblock, Piece.fill_fixed, hoptions]
    simp only [Piece.text, String.append_assoc]

theorem propertyLines_eq_fill (e : Emitter) : ∀ (ps : List Property) (depth : Nat),
    e.propertyLines ps depth = Piece.fill e.typeMap (Property.linePieces e.indent ps depth)
  | [], _ => by
    rw [propertyLines, Property.linePieces]
    rfl
  | ⟨name, value⟩ :: ps, depth => by
    rw [propertyLines, Property.linePieces, Piece.fill_cons, Piece.fill_append, Piece.fill_cons,
      ← expr_eq_fill e value depth, ← propertyLines_eq_fill e ps depth]
    simp only [Piece.text, String.append_assoc]

end

variable {o : ObjectSchema} {depth : Nat}

theorem object_eq_fill (e : Emitter) (o : ObjectSchema) (depth : Nat) :
    e.object o depth = Piece.fill e.typeMap ((Expr.object o).pieces e.indent depth) := e.expr_eq_fill _ depth

/-- Emitters that indent alike write alike what has no scalar on which they differ. -/
theorem object_congr (hindent : e.indent = e'.indent)
    (h : ∀ s ∈ o.scalars, e.typeMap.expression s = e'.typeMap.expression s) : e.object o depth = e'.object o depth := by
  rw [object_eq_fill, object_eq_fill, hindent]
  refine Piece.fill_congr fun s hs => h s ?_
  rwa [Expr.filterMap_pieces, Expr.scalars_object] at hs

/-- Emitters that differ at most at one scalar of a schema agree there if they write it alike. -/
theorem expression_eq_of_object_eq {s : Scalar} (h : e.object o depth = e'.object o depth)
    (hindent : e.indent = e'.indent) (hothers : ∀ t ≠ s, e.typeMap.expression t = e'.typeMap.expression t)
    (hs : s ∈ o.scalars) : e.typeMap.expression s = e'.typeMap.expression s := by
  rw [object_eq_fill, object_eq_fill, hindent] at h
  refine Piece.expression_eq_of_fill_eq hothers ?_ h
  rwa [Expr.filterMap_pieces, Expr.scalars_object]

end Emitter

end SchemaForge
