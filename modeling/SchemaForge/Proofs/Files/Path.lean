import SchemaForge.Files.Path

/-! The names of joined paths. What a directory puts before a relative path does not depend on the path,
    and a name below a directory comes last among the names of the whole. -/

namespace SchemaForge

namespace Path
variable {directory x y : String}

theorem isAbsolute_append (h : x ≠ "") : isAbsolute (x ++ y) = isAbsolute x := by
  rw [isAbsolute, isAbsolute, String.toList_append, List.head?_append]
  cases hx : x.toList with
  | nil => exact absurd (String.toList_eq_nil_iff.mp hx) h
  | cons c cs => rfl

theorem isAbsolute_of_no_slash (hx : '/' ∉ x.toList) : isAbsolute x = false := by
  rw [isAbsolute, decide_eq_false_iff_not]
  exact fun hhead => hx (List.mem_of_head? hhead)

theorem join_of_absolute (h : isAbsolute x = true) : join directory x = x := by
  rw [join, if_pos (Or.inl h)]

/-- What a directory puts before a relative path. -/
def lead (directory : String) : String := join directory ""

theorem join_of_relative (h : isAbsolute x = false) : join directory x = lead directory ++ x := by
  have hempty : isAbsolute "" = false := rfl
  by_cases hdir : directory.isEmpty = true
  · rw [lead, join, join, if_pos (Or.inr hdir), if_pos (Or.inr hdir), String.empty_append]
  · rw [lead, join, join, h, hempty]
    simp only [Bool.false_eq_true, hdir, or_self, if_false]
    cases endsInSlash directory
    · simp only [Bool.false_eq_true, if_false, String.append_empty]
    · simp only [if_true, String.append_empty]

/-! ### Names -/

theorem names_go_append (cs rest : List Char) :
    ∀ name, names.go name (cs ++ '/' :: rest) = names.go name cs ++ names.go [] rest := by
  induction cs with
  | nil =>
    intro name
    rfl
  | cons c cs ih =>
    intro name
    rw [List.cons_append, names.go, names.go]
    by_cases hc : c = '/'
    · rw [if_pos hc, if_pos hc, ih, List.cons_append]
    · rw [if_neg hc, if_neg hc, ih]

theorem names_go_of_no_slash (cs : List Char) :
    ∀ name, '/' ∉ cs → names.go name cs = [String.ofList (name.reverse ++ cs)] := by
  induction cs with
  | nil =>
    intro name _
    rw [names.go, List.append_nil]
  | cons c cs ih =>
    intro name h
    rw [List.mem_cons, not_or] at h
    obtain ⟨hc, hcs⟩ := h
    rw [names.go, if_neg (Ne.symm hc), ih _ hcs, List.reverse_cons, List.append_assoc, List.singleton_append]

theorem names_of_no_slash (h : '/' ∉ x.toList) : names x = [x] := by
  rw [names, names_go_of_no_slash _ _ h, List.reverse_nil, List.nil_append, String.ofList_toList]

theorem names_slash (directory x : String) : names (directory ++ "/" ++ x) = names directory ++ names x := by
  have hslash : "/".toList = ['/'] := rfl
  rw [names, String.toList_append, String.toList_append, hslash, List.append_assoc, List.singleton_append,
    names_go_append]
  rfl

theorem names_ne_nil (path : String) : names path ≠ [] := by
  have hgo : ∀ (cs name : List Char), names.go name cs ≠ [] := by
    intro cs
    induction cs with
    | nil =>
      intro name
      exact List.cons_ne_nil _ _
    | cons c cs ih =>
      intro name
      rw [names.go]
      by_cases hc : c = '/'
      · rw [if_pos hc]
        exact List.cons_ne_nil _ _
      · rw [if_neg hc]
        exact ih _
  exact hgo _ _

theorem lead_eq (directory : String) : lead directory = "" ∨ ∃ outer, lead directory = outer ++ "/" := by
  by_cases hdir : directory.isEmpty = true
  · rw [lead, join, if_pos (Or.inr hdir)]
    exact Or.inl rfl
  · have hempty : isAbsolute "" = false := rfl
    rw [lead, join, hempty]
    simp only [Bool.false_eq_true, hdir, or_self, if_false]
    right
    by_cases hslash : endsInSlash directory = true
    · rw [if_pos hslash, String.append_empty]
      obtain ⟨cs, hcs⟩ := List.getLast?_eq_some_iff.mp (of_decide_eq_true hslash)
      refine ⟨String.ofList cs, String.toList_injective ?_⟩
      rw [hcs, String.toList_append, String.toList_ofList]
      rfl
    · rw [if_neg hslash, String.append_empty]
      exact ⟨directory, rfl⟩

/-- A name below a directory is the last of the names, after the same ones for every name. -/
theorem names_lead (directory : String) :
    ∃ outer, ∀ x, '/' ∉ x.toList → names (lead directory ++ x) = outer ++ [x] := by
  rcases lead_eq directory with h | ⟨outer, h⟩
  · refine ⟨[], fun x hx => ?_⟩
    rw [h, String.empty_append, names_of_no_slash hx]
    rfl
  · refine ⟨names outer, fun x hx => ?_⟩
    rw [h, names_slash, names_of_no_slash hx]

theorem isAbsolute_lead (directory : String) :
    ∃ absolute, ∀ x, '/' ∉ x.toList → isAbsolute (lead directory ++ x) = absolute := by
  by_cases h : lead directory = ""
  · refine ⟨false, fun x hx => ?_⟩
    rw [h, String.empty_append, isAbsolute_of_no_slash hx]
  · exact ⟨isAbsolute (lead directory), fun x _ => isAbsolute_append h⟩

/-- The paths that hold a path are its parent and those that hold the parent. -/
theorem ancestors_of_parent {path parent : String} (h : parent? path = some parent) :
    ancestors path = path :: ancestors parent := by
  rw [ancestors]
  split
  · rename_i hnone
    cases hnone.symm.trans h
  · rename_i p hp
    cases hp.symm.trans h
    rfl

theorem trimSlashes_eq_self {path : String} (h : endsInSlash path = false) : trimSlashes path = path := by
  have hlast : path.toList.getLast? ≠ some '/' := of_decide_eq_false h
  have hdrop : path.toList.reverse.dropWhile (· = '/') = path.toList.reverse := by
    rw [← List.head?_reverse] at hlast
    cases hcs : path.toList.reverse with
    | nil => rfl
    | cons c cs =>
      rw [hcs, List.head?_cons, ne_eq, Option.some.injEq] at hlast
      rw [List.dropWhile_cons_of_neg (by simpa using hlast)]
  rw [trimSlashes, hdrop, List.reverse_reverse, String.ofList_toList]

end Path

end SchemaForge
