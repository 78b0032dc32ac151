import SchemaForge.References

/-! Names in first-seen order. Whatever is inserted, the names of a list are the first occurrences of
    all names that it was given, so long as it held no name twice before. A list that is built from nothing stays
    so over every sequence of operations, also when it is extended by lists that hold a name twice. -/

namespace SchemaForge
namespace References

theorem nodup_eraseDups : ∀ names : List String, names.eraseDups.Nodup
  | [] => List.nodup_nil
  | name :: names => by
    have hrest := nodup_eraseDups (names.filter fun n => !n == name)
    rw [List.eraseDups_cons, List.nodup_cons]
    refine ⟨?_, hrest⟩
    simp [List.mem_eraseDups]
termination_by names => names.length
decreasing_by exact Nat.lt_succ_of_le (List.length_filter_le _ _)

/-- The first occurrences of chosen names are the chosen ones among the first occurrences. -/
theorem eraseDups_filter (p : String → Bool) : ∀ names : List String,
    (names.filter p).eraseDups = names.eraseDups.filter p
  | [] => rfl
  | name :: names => by
    have hrest := eraseDups_filter p (names.filter fun n => !n == name)
    rw [List.eraseDups_cons]
    by_cases h : p name = true
    · rw [List.filter_cons_of_pos h, List.filter_cons_of_pos h, List.eraseDups_cons, ← hrest, List.filter_filter,
        List.filter_filter]
      simp only [Bool.and_comm]
    · -- The name is not chosen, so the choice drops its copies anyway.
      have hout : (names.filter fun n => !n == name).filter p = names.filter p := by
        rw [List.filter_filter]
        refine List.filter_congr fun n _ => ?_
        by_cases hn : n = name
        · simp [hn, h]
        · simp [hn]
      rw [List.filter_cons_of_neg h, List.filter_cons_of_neg h, ← hrest, hout]
termination_by names => names.length
decreasing_by exact Nat.lt_succ_of_le (List.length_filter_le _ _)

theorem eraseDups_map {f : String → String} (hf : ∀ a b, f a = f b → a = b) : ∀ names : List String,
    (names.map f).eraseDups = names.eraseDups.map f
  | [] => rfl
  | name :: names => by
    have hrest := eraseDups_map hf (names.filter fun n => !n == name)
    have hout : (names.map f).filter (fun n => !n == f name) = (names.filter fun n => !n == name).map f := by
      rw [List.filter_map]
      refine congrArg _ (List.filter_congr fun n _ => ?_)
      by_cases hn : n = name
      · simp [hn]
      · rw [Function.comp_apply, beq_false_of_ne hn, beq_false_of_ne fun h => hn (hf n name h)]
    rw [List.map_cons, List.eraseDups_cons, List.eraseDups_cons, List.map_cons, hout, hrest]
termination_by names => names.length
decreasing_by exact Nat.lt_succ_of_le (List.length_filter_le _ _)

theorem names_insert {r : References} {name : String} :
    (r.insert name).names = if name ∈ r.names then r.names else r.names ++ [name] := by
  unfold insert
  by_cases h : name ∈ r.names
  · rw [if_pos (contains_iff.mpr h), if_pos h]
  · rw [if_neg (fun hc => h (contains_iff.mp hc)), if_neg h]

theorem insertAll_append {r : References} {a b : List String} : r.insertAll (a ++ b) = (r.insertAll a).insertAll b :=
  List.foldl_append

theorem insertAll_flatMap {α : Type} {f : α → List String} :
    ∀ (l : List α) (r : References), l.foldl (fun r x => r.insertAll (f x)) r = r.insertAll (l.flatMap f)
  | [], _ => rfl
  | x :: l, r => by
    rw [List.foldl_cons, insertAll_flatMap l, List.flatMap_cons, insertAll_append]

/-- What is inserted comes after what was there, each name once. -/
theorem names_insertAll : ∀ (names : List String) (r : References),
    (r.insertAll names).names = r.names ++ (names.filter fun n => n ∉ r.names).eraseDups
  | [], r => by simp [insertAll]
  | name :: names, r => by
    have step : (r.insertAll (name :: names)).names = ((r.insert name).insertAll names).names := rfl
    rw [step, names_insertAll names (r.insert name), names_insert]
    by_cases h : name ∈ r.names
    · simp [h]
    · rw [if_neg h, List.filter_cons_of_pos (by simpa using h), List.eraseDups_cons, List.append_assoc,
        List.singleton_append, List.filter_filter]
      congr 4
      funext n
      by_cases hn : n = name <;> simp [hn]

theorem mem_insertAll {r : References} {names : List String} {n : String} :
    n ∈ (r.insertAll names).names ↔ n ∈ r.names ∨ n ∈ names := by
  rw [names_insertAll, List.mem_append, List.mem_eraseDups, List.mem_filter, decide_eq_true_eq]
  grind

/-- The names of a list that is built from nothing are the first occurrences of what was supplied. -/
theorem names_ofList (names : List String) : (ofList names).names = names.eraseDups := by
  have hall : (names.filter fun n => n ∉ empty.names) = names := List.filter_eq_self.mpr (by simp [empty])
  rw [ofList, names_insertAll, hall]
  rfl

theorem insertAll_of_forall_mem {r : References} {names : List String} (h : ∀ n ∈ names, n ∈ r.names) :
    r.insertAll names = r := by
  induction names with
  | nil => rfl
  | cons name names ih =>
    obtain ⟨hname, hnames⟩ := List.forall_mem_cons.mp h
    have hinsert : r.insert name = r := if_pos (contains_iff.mpr hname)
    have step : r.insertAll (name :: names) = (r.insert name).insertAll names := rfl
    rw [step, hinsert, ih hnames]

/-! ### Runs -/

/-- What is done to a list: a name is inserted, or the names of another list, which may hold names twice. -/
inductive Operation where
  | insert (name : String)
  | extend (other : References)

namespace Operation

/-- The names that an operation supplies. -/
def supplied : Operation → List String
  | insert name => [name]
  | extend other => other.names

def run (r : References) : Operation → References
  | insert name => r.insert name
  | extend other => r.extend other

theorem run_eq (r : References) (operation : Operation) : operation.run r = r.insertAll operation.supplied := by
  cases operation <;> rfl

end Operation

/-- The list after a sequence of operations. -/
def run (r : References) (operations : List Operation) : References := operations.foldl Operation.run r

theorem run_eq_insertAll (r : References) (operations : List Operation) :
    r.run operations = r.insertAll (operations.flatMap (·.supplied)) := by
  rw [← insertAll_flatMap operations r, run]
  congr 1
  funext r operation
  exact operation.run_eq r

/-- A run that starts from the first occurrences in a list goes on to those in all that was supplied. -/
theorem run_ofList (names : List String) (operations : List Operation) :
    (ofList names).run operations = ofList (names ++ operations.flatMap (·.supplied)) := by
  rw [run_eq_insertAll, ofList, ofList, insertAll_append]

/-- After any operations a list holds the first occurrences of what was ever supplied, in order: no name stands twice,
    none that was supplied is missing, what comes later goes behind, and a list of names that was there once adds
    nothing when it comes again. -/
theorem ordered_over_runs (names : List String) (operations : List Operation) :
    let r := (ofList names).run operations
    let supplied := names ++ operations.flatMap (·.supplied)
    r.names = supplied.eraseDups ∧ r.names.Nodup ∧ (∀ n, r.contains n = true ↔ n ∈ supplied) ∧
      (∀ later, r.names <+: (r.run later).names) ∧
      ∀ other later, ((r.extend other).run later).extend other = (r.extend other).run later := by
  intro r supplied
  have hnames : r.names = supplied.eraseDups := by
    rw [← names_ofList, ← run_ofList]
  refine ⟨hnames, hnames ▸ nodup_eraseDups supplied, fun n => ?_, fun later => ?_, fun other later => ?_⟩
  · rw [contains_iff, hnames, List.mem_eraseDups]
  · rw [run_eq_insertAll, names_insertAll]
    exact List.prefix_append _ _
  · refine insertAll_of_forall_mem fun n hn => ?_
    rw [run_eq_insertAll, mem_insertAll]
    exact Or.inl (mem_insertAll.mpr (Or.inr hn))

example : ((ofList ["Post", "User", "Post"]).run [.extend ⟨["Role", "User", "Role"]⟩, .insert "Tag"]).names =
    ["Post", "User", "Role", "Tag"] := by decide

end References

end SchemaForge
