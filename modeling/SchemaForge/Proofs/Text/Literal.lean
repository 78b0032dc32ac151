import SchemaForge.Text.Literal

/-! Reading what was escaped. The escapes of a text read back as the text, up to the closing quote, so a text in
    quotes determines the text and what comes after it. -/

namespace SchemaForge
namespace Literal

theorem read_escapeChar (c : Char) (rest : List Char) :
    read (escapeChar c ++ rest) = (read rest).map fun p => (c :: p.1, p.2) := by
  unfold escapeChar
  by_cases hbackslash : c = '\\'
  · subst hbackslash
    cases h : read rest <;> simp [read, unescape?, h]
  by_cases hquote : c = '\x27'
  · subst hquote
    cases h : read rest <;> simp [read, unescape?, h]
  by_cases hnewline : c = '\n'
  · subst hnewline
    cases h : read rest <;> simp [read, unescape?, h]
  by_cases hreturn : c = '\r'
  · subst hreturn
    cases h : read rest <;> simp [read, unescape?, h]
  by_cases htab : c = '\t'
  · subst htab
    cases h : read rest <;> simp [read, unescape?, h]
  cases h : read rest <;> simp [read, hbackslash, hquote, hnewline, hreturn, htab, h]

/-- A literal reads as what it was written for, whatever follows its closing quote. -/
theorem read_escape (s : String) (rest : List Char) :
    read ((escape s).toList ++ '\x27' :: rest) = some (s.toList, rest) := by
  rw [escape_eq, String.toList_ofList]
  induction s.toList with
  | nil => simp [read]
  | cons c cs ih => rw [List.flatMap_cons, List.append_assoc, read_escapeChar, ih, Option.map_some]

theorem escape_inj {s t : String} {r r' : List Char}
    (h : (escape s).toList ++ '\x27' :: r = (escape t).toList ++ '\x27' :: r') : s = t ∧ r = r' := by
  have hread := read_escape s r
  rw [h, read_escape t r', Option.some.injEq, Prod.mk.injEq] at hread
  exact ⟨String.toList_injective hread.1.symm, hread.2.symm⟩

end Literal

end SchemaForge
