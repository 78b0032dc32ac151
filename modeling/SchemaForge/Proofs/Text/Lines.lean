import Mathlib.Data.List.Basic
import SchemaForge.Format
import SchemaForge.Text.Literal

/-! Indentation of a text as a whole: the same lead after every line feed. A text of one line is left as it is, so the
    parts of a text can be indented one by one, as they can be written with a line ending. -/

namespace SchemaForge
namespace Text

/-- The text holds no line feed. -/
def OneLine (s : String) : Prop := '\n' ∉ s.toList

instance (s : String) : Decidable (OneLine s) := inferInstanceAs (Decidable (¬ _))

/-- The text with `lead` after every line feed. -/
def indented (lead s : String) : String :=
  String.ofList (s.toList.flatMap fun c => if c = '\n' then '\n' :: lead.toList else [c])

section
variable {a b s lead : String}

theorem oneLine_append : OneLine (a ++ b) ↔ OneLine a ∧ OneLine b := by
  simp only [OneLine, String.toList_append, List.mem_append, not_or]

theorem oneLine_escape (s : String) : OneLine (Literal.escape s) := by
  have hchar : ∀ c, '\n' ∉ Literal.escapeChar c := by
    intro c
    grind [Literal.escapeChar]
  simp [OneLine, Literal.escape_eq, hchar]

theorem oneLine_indent (i : Indent) : ∀ depth, OneLine (i.text depth)
  | 0 => show OneLine "" by decide
  | depth + 1 => by
    rw [Indent.text, oneLine_append]
    exact ⟨by cases i <;> decide, oneLine_indent i depth⟩

theorem indented_append : indented lead (a ++ b) = indented lead a ++ indented lead b := by
  rw [indented, String.toList_append, List.flatMap_append, String.ofList_append]
  rfl

theorem indented_of_oneLine (h : OneLine s) : indented lead s = s := by
  have hself : (s.toList.flatMap fun c => if c = '\n' then '\n' :: lead.toList else [c]) = s.toList.flatMap ([·]) := by
    refine List.flatMap_congr fun c hc => if_neg ?_
    rintro rfl
    exact h hc
  rw [indented, hself, List.flatMap_singleton', String.ofList_toList]

/-- A line with its feed is followed by the lead. -/
theorem indented_of_line (ha : OneLine a) (hs : s = a ++ "\n") : indented lead s = s ++ lead := by
  have hfeed : indented lead "\n" = "\n" ++ lead := by
    apply String.toList_injective
    simp [indented]
  rw [hs, indented_append, indented_of_oneLine ha, hfeed, String.append_assoc]

end

end Text

namespace Indent

theorem text_add (i : Indent) (b : Nat) : ∀ a, i.text (a + b) = i.text a ++ i.text b
  | 0 => by rw [Nat.zero_add, text, String.empty_append]
  | a + 1 => by rw [Nat.succ_add, text, text, text_add i b a, String.append_assoc]

theorem text_eq_join (i : Indent) : ∀ depth, i.text depth = String.join (List.replicate depth i.unit)
  | 0 => rfl
  | depth + 1 => by rw [text, text_eq_join i depth, List.replicate_succ, String.join_cons]

end Indent

namespace LineEnding

/-- How a character is written in a text with this line ending. -/
def written (e : LineEnding) (c : Char) : List Char := if c = '\n' then e.text.toList else [c]

theorem toList_apply (e : LineEnding) (s : String) : (e.apply s).toList = s.toList.flatMap e.written := by
  cases e with
  | lf =>
    have hself : lf.written = ([·]) := by
      funext c
      by_cases h : c = '\n' <;> simp [written, text, h]
    rw [hself, List.flatMap_singleton']
    rfl
  | crlf => exact String.toList_ofList

theorem apply_append (e : LineEnding) (a b : String) : e.apply (a ++ b) = e.apply a ++ e.apply b := by
  apply String.toList_injective
  simp only [toList_apply, String.toList_append, List.flatMap_append]

end LineEnding

end SchemaForge
