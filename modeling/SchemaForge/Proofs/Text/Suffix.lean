/-! Texts that are told apart by how they end. Two texts with endings of one length are equal only if
    the endings are, and texts whose last characters differ are not equal. A text that ends in a number
    after a low line determines both. -/

namespace SchemaForge
namespace Text
variable {a b s t : String}

theorem append_inj_of_length (h : a ++ s = b ++ t) (hlen : s.toList.length = t.toList.length) : a = b ∧ s = t := by
  have hl := congrArg String.toList h
  rw [String.toList_append, String.toList_append] at hl
  obtain ⟨ha, hs⟩ := List.append_inj' hl hlen
  exact ⟨String.toList_injective ha, String.toList_injective hs⟩

theorem append_ne_of_last {x y : Char} (hs : s.toList.getLast? = some x) (ht : t.toList.getLast? = some y)
    (hxy : x ≠ y) : a ++ s ≠ b ++ t := by
  intro h
  have hl := congrArg (fun s => s.toList.getLast?) h
  simp only [String.toList_append, List.getLast?_append, hs, ht, Option.some_or, Option.some.injEq] at hl
  exact hxy hl

theorem toList_toString (n : Nat) : (toString n).toList = Nat.toDigits 10 n := by
  rw [Nat.toString_eq_ofList_toDigits, String.toList_ofList]

/-- The last occurrence of a character comes after every other one. -/
theorem eq_nil_of_last {c : Char} {as xs ys : List Char} (h : c :: xs = as ++ c :: ys) (hc : c ∉ xs) : as = [] := by
  cases as with
  | nil => rfl
  | cons a as =>
    rw [List.cons_append, List.cons.injEq] at h
    exact absurd (h.2 ▸ List.mem_append_right as List.mem_cons_self) hc

theorem numbered_inj {i j : Nat} (h : a ++ "_" ++ toString i = b ++ "_" ++ toString j) : a = b ∧ i = j := by
  have hl := congrArg String.toList h
  have hlow : "_".toList = ['_'] := rfl
  simp only [String.toList_append, toList_toString, hlow, List.append_assoc, List.singleton_append] at hl
  have hparts : a.toList = b.toList ∧ Nat.toDigits 10 i = Nat.toDigits 10 j := by
    rcases List.append_eq_append_iff.mp hl with ⟨as, hb, hrest⟩ | ⟨as, ha, hrest⟩
    · obtain rfl := eq_nil_of_last hrest Nat.underscore_not_in_toDigits
      exact ⟨(hb.trans (List.append_nil _)).symm, (List.cons.inj hrest).2⟩
    · obtain rfl := eq_nil_of_last hrest Nat.underscore_not_in_toDigits
      exact ⟨ha.trans (List.append_nil _), (List.cons.inj hrest).2.symm⟩
  refine ⟨String.toList_injective hparts.1, ?_⟩
  rw [← Nat.ofDigitChars_ten_toDigits (n := i), hparts.2, Nat.ofDigitChars_ten_toDigits]

/-- A text that ends in a number ends in a digit. -/
theorem getLast?_numbered (n : Nat) : ∃ c, (a ++ toString n).toList.getLast? = some c ∧ c.isDigit = true := by
  have hne : Nat.toDigits 10 n ≠ [] := Nat.toDigits_ne_nil
  refine ⟨_, ?_, Nat.isDigit_of_mem_toDigits (by decide) (by decide) (List.getLast_mem hne)⟩
  rw [String.toList_append, toList_toString, List.getLast?_append, List.getLast?_eq_some_getLast hne, Option.some_or]

end Text

end SchemaForge
