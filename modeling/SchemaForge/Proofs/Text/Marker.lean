import SchemaForge.Format
import SchemaForge.Proofs.Text.Suffix
import SchemaForge.Text.Literal

/-! Two adjacent colons, the mark of a placeholder. A character that is no colon parts a text: the mark stands before
    it or after it, never across it. So a part without colons can be left out, and a single colon
    with a space after it too. -/

namespace SchemaForge
namespace Text

/-- The text holds two adjacent colons. -/
def Marked (s : String) : Prop := "::".toList <:+: s.toList

/-- The text holds no colon. -/
def Plain (s : String) : Prop := ':' ∉ s.toList

instance (s : String) : Decidable (Marked s) := inferInstanceAs (Decidable (_ <:+: _))

instance (s : String) : Decidable (Plain s) := inferInstanceAs (Decidable (¬ _))

/-! ### Where the mark can stand -/

theorem infix_append_cons {c : Char} (hc : c ≠ ':') (b : List Char) :
    ∀ a, [':', ':'] <:+: a ++ c :: b ↔ [':', ':'] <:+: a ∨ [':', ':'] <:+: b
  | [] => by simp [List.infix_cons_iff, hc.symm]
  | x :: a => by
    -- The character is no part of the mark, so it does not matter whether it follows `x`.
    have hfirst : [':', ':'] <+: x :: (a ++ c :: b) ↔ [':', ':'] <+: x :: a := by
      cases a <;> simp [hc.symm]
    rw [List.cons_append, List.infix_cons_iff, infix_append_cons hc b a, hfirst, List.infix_cons_iff, or_assoc]

theorem infix_cons {c : Char} (hc : c ≠ ':') (b : List Char) : [':', ':'] <:+: c :: b ↔ [':', ':'] <:+: b := by
  simpa using infix_append_cons hc b []

theorem infix_append_left : ∀ {a : List Char}, ':' ∉ a → ∀ b, [':', ':'] <:+: a ++ b ↔ [':', ':'] <:+: b
  | [], _, _ => Iff.rfl
  | c :: a, h, b => by
    rw [List.mem_cons, not_or] at h
    rw [List.cons_append, infix_cons (Ne.symm h.1), infix_append_left h.2]

section
variable {a b c : String}

theorem marked_iff : Marked a ↔ [':', ':'] <:+: a.toList := Iff.rfl

@[simp]
theorem plain_append : Plain (a ++ b) ↔ Plain a ∧ Plain b := by
  simp only [Plain, String.toList_append, List.mem_append, not_or]

theorem marked_append_left (ha : Plain a) : Marked (a ++ b) ↔ Marked b := by
  rw [marked_iff, String.toList_append, infix_append_left ha]
  rfl

/-- A part without colons keeps the mark out of the place where it stands. -/
theorem marked_between (hb : Plain b) (hne : b ≠ "") : Marked (a ++ b ++ c) ↔ Marked a ∨ Marked c := by
  have hchars : b.toList ≠ [] := fun h => hne (String.toList_injective h)
  obtain ⟨x, rest, hcons⟩ := List.exists_cons_of_ne_nil hchars
  rw [Plain, hcons, List.mem_cons, not_or] at hb
  rw [marked_iff, String.toList_append, String.toList_append, List.append_assoc, hcons, List.cons_append,
    infix_append_cons (Ne.symm hb.1), infix_append_left hb.2]
  rfl

theorem not_marked (ha : Plain a) : ¬ Marked a := fun h => ha (h.subset (show ':' ∈ "::".toList by decide))

theorem marked_append_right (hb : Plain b) : Marked (a ++ b) ↔ Marked a := by
  by_cases hne : b = ""
  · rw [hne, String.append_empty]
  · have h := marked_between (a := a) (c := "") hb hne
    rwa [String.append_empty, or_iff_left (not_marked (by decide))] at h

/-- One colon after a part without colons is no mark, since a space follows it. -/
theorem marked_member (ha : Plain a) : Marked (a ++ ": " ++ b) ↔ Marked b := by
  have hspace : ' ' ≠ ':' := by decide
  have hcolon : [':'] ++ ' ' :: b.toList = ": ".toList ++ b.toList := by simp
  rw [String.append_assoc, marked_append_left ha, marked_iff, String.toList_append, ← hcolon,
    infix_append_cons hspace, or_iff_right (by decide)]
  rfl

end

/-- A list of texts with parts without colons between them holds the mark exactly when one of the texts does. -/
theorem marked_intercalate {sep : String} (hsep : Plain sep) (hne : sep ≠ "") :
    ∀ ss : List String, Marked (String.intercalate sep ss) ↔ ∃ s ∈ ss, Marked s
  | [] => by simp [Marked]
  | [s] => by simp
  | s :: t :: ss => by
    rw [String.intercalate_cons_cons, marked_between hsep hne, marked_intercalate hsep hne (t :: ss)]
    simp only [List.mem_cons, exists_eq_or_imp]

/-! ### Texts of the emitter -/

@[simp]
theorem plain_escape {s : String} : Plain (Literal.escape s) ↔ Plain s := by
  have hchar : ∀ c, ':' ∈ Literal.escapeChar c ↔ c = ':' := by
    intro c
    grind [Literal.escapeChar]
  simp only [Plain, Literal.escape_eq, String.toList_ofList, List.mem_flatMap, hchar, exists_eq_right]

@[simp]
theorem plain_toString (n : Nat) : Plain (toString n) := by
  intro h
  rw [toList_toString] at h
  exact absurd (Nat.isDigit_of_mem_toDigits (by decide) (by decide) h) (by decide)

@[simp]
theorem plain_toString_bool (b : Bool) : Plain (toString b) := by cases b <;> decide

@[simp]
theorem plain_indent (i : Indent) : ∀ depth, Plain (i.text depth)
  | 0 => show Plain "" by decide
  | depth + 1 => by
    rw [Indent.text, plain_append]
    exact ⟨by cases i <;> decide, plain_indent i depth⟩

/-- A line ending puts no colon anywhere and takes none away. -/
theorem marked_apply (e : LineEnding) (s : String) : Marked (e.apply s) ↔ Marked s := by
  cases e with
  | lf => exact Iff.rfl
  | crlf =>
    rw [marked_iff, LineEnding.apply, String.toList_ofList, marked_iff]
    induction s.toList with
    | nil => exact Iff.rfl
    | cons c cs ih =>
      rw [List.flatMap_cons]
      by_cases hc : c = ':'
      · subst hc
        -- The next character is a colon in both texts or in neither.
        have hnext : [':'] <+: (cs.flatMap fun c => if c = '\n' then ['\r', '\n'] else [c]) ↔ [':'] <+: cs := by
          cases cs with
          | nil => exact Iff.rfl
          | cons d ds => by_cases hd : d = '\n' <;> simp [hd]
        rw [if_neg (by decide), List.singleton_append, List.infix_cons_iff, List.infix_cons_iff, ih,
          List.cons_prefix_cons, List.cons_prefix_cons, hnext]
      · have hplain : ':' ∉ (if c = '\n' then ['\r', '\n'] else [c]) := by
          split <;> simp [Ne.symm hc]
        rw [infix_append_left hplain, infix_cons hc, ih]

end Text

end SchemaForge
