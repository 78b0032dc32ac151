import SchemaForge.Proofs.Text.Lines

/-! Replacing a pattern in a text, from the left and without overlap. A line ending is such a replacement, and it can
    be taken back in every text: a carriage return that stood before a line feed stands before another carriage return
    afterwards, so the pattern is found at the one that was put in. -/

namespace SchemaForge
namespace Text

/-- Puts `replacement` in the place of each occurrence of `pattern`, from the left. The first `skip` characters still
    belong to an occurrence. -/
def replaceFrom (pattern replacement : List Char) : Nat → List Char → List Char
  | _, [] => []
  | skip + 1, _ :: cs => replaceFrom pattern replacement skip cs
  | 0, c :: cs =>
    if pattern.isPrefixOf (c :: cs) then replacement ++ replaceFrom pattern replacement (pattern.length - 1) cs
    else c :: replaceFrom pattern replacement 0 cs

/-- The text with `replacement` in the place of each occurrence of a pattern that is not empty. -/
def replaced (pattern replacement s : String) : String :=
  String.ofList (replaceFrom pattern.toList replacement.toList 0 s.toList)

section
variable {pattern replacement cs : List Char} {c : Char}

theorem replaceFrom_length (skipped cs : List Char) :
    replaceFrom pattern replacement skipped.length (skipped ++ cs) = replaceFrom pattern replacement 0 cs := by
  induction skipped with
  | nil => rfl
  | cons c skipped ih => exact ih

/-- An occurrence at the start is replaced, and what follows it is searched from its end on. -/
theorem replaceFrom_pattern (c : Char) (pattern replacement cs : List Char) :
    replaceFrom (c :: pattern) replacement 0 (c :: pattern ++ cs) =
      replacement ++ replaceFrom (c :: pattern) replacement 0 cs := by
  have hprefix : (c :: pattern).isPrefixOf (c :: (pattern ++ cs)) = true :=
    List.isPrefixOf_iff_prefix.mpr (List.prefix_append (c :: pattern) cs)
  rw [List.cons_append, replaceFrom, if_pos hprefix]
  exact congrArg _ (replaceFrom_length pattern cs)

/-- A character at which no occurrence starts is kept. -/
theorem replaceFrom_of_not_prefix (h : ¬ pattern <+: c :: cs) :
    replaceFrom pattern replacement 0 (c :: cs) = c :: replaceFrom pattern replacement 0 cs := by
  rw [replaceFrom, if_neg fun hprefix => h (List.isPrefixOf_iff_prefix.mp hprefix)]

end

end Text

namespace LineEnding

theorem written_feed : crlf.written '\n' = ['\r', '\n'] := rfl

theorem written_of_ne (e : LineEnding) {c : Char} (h : c ≠ '\n') : e.written c = [c] := if_neg h

/-- With carriage returns put in, no text starts with a line feed. -/
theorem flatMap_written_ne_feed (cs rest : List Char) : cs.flatMap crlf.written ≠ '\n' :: rest := by
  cases cs with
  | nil => exact fun h => nomatch h
  | cons c cs =>
    rw [List.flatMap_cons]
    by_cases hc : c = '\n'
    · rw [hc, written_feed]
      exact fun h => absurd (List.cons.inj h).1 (by decide)
    · rw [written_of_ne _ hc]
      exact fun h => hc (List.cons.inj h).1

/-- Writing a text with carriage returns replaces its line feeds. -/
theorem apply_crlf (s : String) : crlf.apply s = Text.replaced "\n" "\r\n" s := by
  have hall : ∀ cs : List Char, cs.flatMap crlf.written = Text.replaceFrom ['\n'] ['\r', '\n'] 0 cs := by
    intro cs
    induction cs with
    | nil => rfl
    | cons c cs ih =>
      rw [List.flatMap_cons, ih]
      by_cases hc : c = '\n'
      · rw [hc, written_feed]
        exact (Text.replaceFrom_pattern '\n' [] ['\r', '\n'] cs).symm
      · have hnot : ¬ ['\n'] <+: c :: cs := fun h => hc (List.cons_prefix_cons.mp h).1.symm
        rw [written_of_ne _ hc, Text.replaceFrom_of_not_prefix hnot]
        rfl
  apply String.toList_injective
  rw [toList_apply, hall, Text.replaced, String.toList_ofList]
  rfl

/-- The line feeds of any text come back, also where a carriage return stood before one. -/
theorem replaced_apply_crlf (s : String) : Text.replaced "\r\n" "\n" (crlf.apply s) = s := by
  have hall : ∀ cs : List Char, Text.replaceFrom ['\r', '\n'] ['\n'] 0 (cs.flatMap crlf.written) = cs := by
    intro cs
    induction cs with
    | nil => rfl
    | cons c cs ih =>
      rw [List.flatMap_cons]
      by_cases hc : c = '\n'
      · rw [hc, written_feed, Text.replaceFrom_pattern, ih]
        rfl
      · -- A carriage return of the text itself is not followed by a line feed any more.
        have hnot : ¬ ['\r', '\n'] <+: c :: cs.flatMap crlf.written := by
          intro h
          obtain ⟨rest, hrest⟩ := (List.cons_prefix_cons.mp h).2
          exact flatMap_written_ne_feed cs rest hrest.symm
        rw [written_of_ne _ hc, List.singleton_append, Text.replaceFrom_of_not_prefix hnot, ih]
  apply String.toList_injective
  rw [Text.replaced, String.toList_ofList, toList_apply]
  exact hall s.toList

example : Text.replaced "\r\n" "\n" (crlf.apply "a\r\nb\n\n\r") = "a\r\nb\n\n\r" := by decide

theorem apply_injective (e : LineEnding) {s t : String} (h : e.apply s = e.apply t) : s = t := by
  cases e with
  | lf => exact h
  | crlf => rw [← replaced_apply_crlf s, h, replaced_apply_crlf t]

end LineEnding

end SchemaForge
