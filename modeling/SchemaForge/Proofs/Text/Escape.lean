import SchemaForge.Proofs.Text.Literal
import SchemaForge.Proofs.Text.Script

/-! Escaped text. Read from the left it is a row of plain characters and of escapes, so each quote in it has a
    backslash of its own, and the first quote without one is the one that was put behind it. -/

namespace SchemaForge
namespace Literal

/-- The letters of the escapes. -/
def escapeLetters : List Char := ['\\', '\x27', 'n', 'r', 't']

/-- These characters end inside an escape: with a backslash that is not the second character of an escape itself. -/
def opensEscape (cs : List Char) : Bool := cs.foldl (fun opened c => decide (c = '\\') && !opened) false

/-- The text between the quotes of a literal has no line break or tab, no quote outside escapes, and no backslash
    outside escapes but at the start of one, and no escape goes on behind it. -/
structure Escaped (cs : List Char) : Prop where
  noBreak : '\n' ∉ cs ∧ '\r' ∉ cs ∧ '\t' ∉ cs
  quote : ∀ before after, cs = before ++ '\x27' :: after → opensEscape before = true
  backslash : ∀ before after, cs = before ++ '\\' :: after → opensEscape before = false →
    ∃ c rest, after = c :: rest ∧ c ∈ escapeLetters
  complete : opensEscape cs = false

theorem opensEscape_cons {c : Char} (hc : c ≠ '\\') (cs : List Char) : opensEscape (c :: cs) = opensEscape cs := by
  simp [opensEscape, hc]

theorem opensEscape_escape (c : Char) (cs : List Char) : opensEscape ('\\' :: c :: cs) = opensEscape cs := by
  simp [opensEscape]

namespace Escaped
variable {c : Char} {cs : List Char}

theorem nil : Escaped [] := ⟨by simp, by simp, by simp, rfl⟩

theorem cons_plain (h : Escaped cs) (hc : c ∉ ['\\', '\x27', '\n', '\r', '\t']) : Escaped (c :: cs) := by
  simp only [List.mem_cons, List.not_mem_nil, or_false, not_or] at hc
  obtain ⟨hbackslash, hquote, hfeed, hreturn, htab⟩ := hc
  refine ⟨?_, ?_, ?_, (opensEscape_cons hbackslash cs).trans h.complete⟩
  · simpa [eq_comm, hfeed, hreturn, htab] using h.noBreak
  · intro before after hcs
    cases before with
    | nil => exact absurd (List.cons.inj hcs).1 hquote
    | cons d before =>
      obtain ⟨rfl, htail⟩ := List.cons.inj hcs
      rw [opensEscape_cons hbackslash]
      exact h.quote before after htail
  · intro before after hcs
    cases before with
    | nil => exact absurd (List.cons.inj hcs).1 hbackslash
    | cons d before =>
      obtain ⟨rfl, htail⟩ := List.cons.inj hcs
      rw [opensEscape_cons hbackslash]
      exact h.backslash before after htail

theorem cons_escape (h : Escaped cs) (hc : c ∈ escapeLetters) : Escaped ('\\' :: c :: cs) := by
  refine ⟨?_, ?_, ?_, (opensEscape_escape c cs).trans h.complete⟩
  · have hletter : c ≠ '\n' ∧ c ≠ '\r' ∧ c ≠ '\t' := by
      simp only [escapeLetters, List.mem_cons, List.not_mem_nil, or_false] at hc
      rcases hc with rfl | rfl | rfl | rfl | rfl <;> decide
    simpa [eq_comm, hletter] using h.noBreak
  · rintro (_ | ⟨d, _ | ⟨d', before⟩⟩) after hcs
    · exact absurd (List.cons.inj hcs).1 (by decide)
    · obtain ⟨rfl, -⟩ := List.cons.inj hcs
      rfl
    · obtain ⟨rfl, htail⟩ := List.cons.inj hcs
      rw [opensEscape_escape]
      exact h.quote before after (List.cons.inj htail).2
  · rintro (_ | ⟨d, _ | ⟨d', before⟩⟩) after hcs hclosed
    · exact ⟨c, cs, (List.cons.inj hcs).2.symm, hc⟩
    · -- The letter of the escape is a backslash that starts none.
      obtain ⟨rfl, -⟩ := List.cons.inj hcs
      cases hclosed
    · obtain ⟨rfl, htail⟩ := List.cons.inj hcs
      rw [opensEscape_escape] at hclosed
      exact h.backslash before after (List.cons.inj htail).2 hclosed

theorem append_escapeChar (h : Escaped cs) (c : Char) : Escaped (escapeChar c ++ cs) := by
  unfold escapeChar
  iterate 5
    split
    · exact h.cons_escape (by decide)
  exact h.cons_plain (by simp [*])

/-- The first quote outside escapes is the one behind the text. -/
theorem prefix_of_quote (h : Escaped cs) {rest before after : List Char}
    (hcs : cs ++ '\x27' :: rest = before ++ '\x27' :: after) (hbefore : opensEscape before = false) : cs <+: before := by
  rcases List.append_eq_append_iff.mp hcs with ⟨more, rfl, -⟩ | ⟨more, rfl, hmore⟩
  · exact List.prefix_append cs more
  · cases more with
    | nil => simp
    | cons c more =>
      obtain ⟨rfl, -⟩ := List.cons.inj hmore
      rw [h.quote before more rfl] at hbefore
      cases hbefore

end Escaped

theorem escaped_escape (s : String) : Escaped (escape s).toList := by
  rw [escape_eq, String.toList_ofList]
  induction s.toList with
  | nil => exact .nil
  | cons c cs ih => exact ih.append_escapeChar c

/-! ### As scripts read it -/

/-- The escapes that are written mean in scripts what they mean here. -/
theorem step_escape {c d : Char} (h : unescape? c = some d) :
    Script.step .escape c = some (.plain, Script.charUnits d) := by
  unfold unescape? at h
  iterate 5
    split at h
    · cases h
      subst c
      rfl
  cases h

/-- What is read with the escapes that are written is what scripts read. -/
theorem script_read {cs denoted after : List Char} (h : read cs = some (denoted, after)) :
    Script.read .plain cs = some (Script.units denoted, after) := by
  fun_induction read cs generalizing denoted after with
  | case1 => cases h
  | case2 => cases h
  | case3 c cs ih =>
    obtain ⟨d, hd, h⟩ := Option.bind_eq_some_iff.mp h
    obtain ⟨⟨rest, after'⟩, hrest, h⟩ := Option.bind_eq_some_iff.mp h
    cases h
    have hbackslash : Script.step .plain '\\' = some (.escape, []) := rfl
    rw [Script.read_cons_of_step (by simp) hbackslash,
      Script.read_cons_of_step (by simp [Script.Mode.closes]) (step_escape hd), ih hrest]
    rfl
  | case4 cs =>
    cases h
    rfl
  | case5 c cs hend hescape hquote hbreak => cases h
  | case6 c cs hend hescape hquote hbreak ih =>
    obtain ⟨⟨rest, after'⟩, hrest, h⟩ := Option.bind_eq_some_iff.mp h
    cases h
    have hbackslash : c ≠ '\\' := by
      rintro rfl
      cases cs with
      | nil => exact hend rfl rfl
      | cons d cs => exact hescape d cs rfl rfl
    have hplain : Script.step .plain c = some (.plain, Script.charUnits c) := by
      simp [Script.step, Script.stepPlain, hbackslash, hbreak]
    rw [Script.read_cons_of_step (fun hc => hquote hc.1) hplain, ih hrest]
    rfl

/-- Escaping, one replacement after the other, writes every character on its own. What it writes is a well-formed
    literal that loses nothing, here and in scripts, and it ends at the quote that is put behind it. -/
theorem escape_lossless : Function.Injective escape ∧ ∀ s : String,
    escape s = String.ofList (s.toList.flatMap escapeChar) ∧ Escaped (escape s).toList ∧
      ∀ rest, read ((escape s).toList ++ '\x27' :: rest) = some (s.toList, rest) ∧
        Script.read .plain ((escape s).toList ++ '\x27' :: rest) = some (Script.units s.toList, rest) ∧
        ∀ before after, (escape s).toList ++ '\x27' :: rest = before ++ '\x27' :: after →
          opensEscape before = false → (escape s).toList <+: before := by
  refine ⟨fun s t h => ?_, fun s => ⟨escape_eq s, escaped_escape s, fun rest => ?_⟩⟩
  · have hliteral : (escape s).toList ++ ['\x27'] = (escape t).toList ++ ['\x27'] := by rw [h]
    exact (escape_inj hliteral).1
  · have hread := read_escape s rest
    exact ⟨hread, script_read hread, fun before after => (escaped_escape s).prefix_of_quote⟩

theorem escape_lossless_backslash :
    let literal : List Char := ['a', '\\', '\x27', '\\', '\\', '\x27', ',', '\x27']
    (escape "a\x27\\").toList ++ '\x27' :: [',', '\x27'] = literal ∧ opensEscape (literal.take 5) = false ∧
      (escape "a\x27\\").toList <+: literal.take 5 := by
  intro literal
  have hliteral : (escape "a\x27\\").toList ++ '\x27' :: [',', '\x27'] = literal.take 5 ++ '\x27' :: [',', '\x27'] := by
    decide
  have hclosed : opensEscape (literal.take 5) = false := by decide
  exact ⟨hliteral, hclosed, ((escape_lossless.2 "a\x27\\").2.2 [',', '\x27']).2.2 _ _ hliteral hclosed⟩

end Literal
end SchemaForge
