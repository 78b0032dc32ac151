import SchemaForge.Text.Blank

/-! What trimming the end of a text leaves: everything up to the last character that is not white space. -/

namespace SchemaForge

namespace Text

/-- A character that is not white space is left, with all that stands before it. -/
theorem prefix_trimEnd {s : String} {before rest : List Char} {c : Char} (h : s.toList = before ++ c :: rest)
    (hc : isBlank c = false) : before ++ [c] <+: trimEnd s := by
  have hreverse : s.toList.reverse = rest.reverse ++ c :: before.reverse := by
    rw [h, List.reverse_append, List.reverse_cons, List.append_assoc]
    rfl
  have hsuffix : c :: before.reverse <:+ s.toList.reverse.dropWhile isBlank := by
    rw [hreverse, List.dropWhile_append]
    split
    · have hstop : (c :: before.reverse).dropWhile isBlank = c :: before.reverse :=
        List.dropWhile_cons_of_neg (ne_true_of_eq_false hc)
      exact hstop.symm ▸ List.suffix_rfl
    · exact List.suffix_append _ _
  have hprefix := List.reverse_prefix.mpr hsuffix
  rwa [List.reverse_cons, List.reverse_reverse] at hprefix

/-- Texts that come apart at a character that is not white space differ by more than white space at the end. -/
theorem trimEnd_ne {before x y : String} {c c' : Char} {rest rest' : List Char} (hx : x.toList = c :: rest)
    (hy : y.toList = c' :: rest') (hc : isBlank c = false) (hne : c ≠ c') :
    trimEnd (before ++ x) ≠ trimEnd (before ++ y) := by
  intro h
  have hleft : before.toList ++ [c] <+: trimEnd (before ++ x) :=
    prefix_trimEnd (by rw [String.toList_append, hx]) hc
  have hright : trimEnd (before ++ y) <+: before.toList ++ c' :: rest' := by
    have hsuffix := List.dropWhile_suffix isBlank (l := (before ++ y).toList.reverse)
    rw [← List.reverse_prefix, List.reverse_reverse, String.toList_append, hy] at hsuffix
    rw [trimEnd, String.toList_append, hy]
    exact hsuffix
  have hprefix := (h ▸ hleft).trans hright
  rw [List.prefix_append_right_inj, List.cons_prefix_cons] at hprefix
  exact hne hprefix.1

end Text

end SchemaForge
