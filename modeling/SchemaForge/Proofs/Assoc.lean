import Mathlib.Data.List.Basic
import SchemaForge.Assoc

/-! Association lists whose keys grow. Such a list holds each key once, so looking a key up finds all that there is
    for it, and binding a key keeps the list so. Taking its pairs one after the other is then taking what there is for
    each key. -/

namespace SchemaForge

namespace Assoc
variable {α : Type} {l more : List (String × α)} {key : String}

/-- The keys grow along the list. -/
def Sorted (l : List (String × α)) : Prop := l.Pairwise fun a b => a.1 < b.1

theorem sorted_of_keys (h : (l.map Prod.fst).Pairwise (· < ·)) : Sorted l := List.pairwise_map.mp h

theorem Sorted.nodup (h : Sorted l) : (l.map Prod.fst).Nodup := by
  refine List.pairwise_map.mpr (h.imp fun {a b} hab he => ?_)
  rw [he] at hab
  exact String.lt_irrefl _ hab

theorem lt_of_not_lt_of_ne {a b : String} (hnot : ¬ a < b) (hne : a ≠ b) : b < a := by
  refine Decidable.byContradiction fun hnot' => hne ?_
  exact String.le_antisymm (String.not_lt.mp hnot') (String.not_lt.mp hnot)

theorem mem_insertNew {value : α} {p : String × α} (h : p ∈ insertNew key value l) : p = (key, value) ∨ p ∈ l := by
  induction l with
  | nil => exact Or.inl (List.mem_singleton.mp h)
  | cons q rest ih =>
    unfold insertNew at h
    split at h
    · exact List.mem_cons.mp h
    · split at h
      · exact Or.inr h
      · rcases List.mem_cons.mp h with rfl | h
        · exact Or.inr List.mem_cons_self
        · exact (ih h).imp_right (List.mem_cons_of_mem q)

theorem mem_insert {value : α} {p : String × α} (h : p ∈ insert key value l) : p = (key, value) ∨ p ∈ l := by
  induction l with
  | nil => exact Or.inl (List.mem_singleton.mp h)
  | cons q rest ih =>
    unfold insert at h
    split at h
    · exact List.mem_cons.mp h
    · split at h
      · exact (List.mem_cons.mp h).imp_right (List.mem_cons_of_mem q)
      · rcases List.mem_cons.mp h with rfl | h
        · exact Or.inr List.mem_cons_self
        · exact (ih h).imp_right (List.mem_cons_of_mem q)

theorem Sorted.cons_before {p : String × α} (h : Sorted (p :: l)) (hlt : key < p.1) (value : α) :
    Sorted ((key, value) :: p :: l) := by
  refine List.pairwise_cons.mpr ⟨fun q hq => ?_, h⟩
  rcases List.mem_cons.mp hq with rfl | hq
  · exact hlt
  · exact String.lt_trans hlt ((List.pairwise_cons.mp h).1 q hq)

/-- Behind a smaller pair the list may get one more key. -/
theorem Sorted.cons_of_mem {p : String × α} {value : α} (h : Sorted (p :: l)) (hlt : p.1 < key) (hmore : Sorted more)
    (hmem : ∀ q ∈ more, q = (key, value) ∨ q ∈ l) : Sorted (p :: more) := by
  refine List.pairwise_cons.mpr ⟨fun q hq => ?_, hmore⟩
  rcases hmem q hq with rfl | hq
  · exact hlt
  · exact (List.pairwise_cons.mp h).1 q hq

theorem Sorted.insertNew (h : Sorted l) (key : String) (value : α) : Sorted (insertNew key value l) := by
  induction l with
  | nil => exact List.pairwise_singleton _ _
  | cons p rest ih =>
    unfold Assoc.insertNew
    split
    · rename_i hlt
      exact h.cons_before hlt value
    · rename_i hnot
      split
      · exact h
      · rename_i hne
        exact h.cons_of_mem (lt_of_not_lt_of_ne hnot hne) (ih (List.pairwise_cons.mp h).2) fun _ hq => mem_insertNew hq

theorem Sorted.insert (h : Sorted l) (key : String) (value : α) : Sorted (insert key value l) := by
  induction l with
  | nil => exact List.pairwise_singleton _ _
  | cons p rest ih =>
    obtain ⟨hfirst, hrest⟩ := List.pairwise_cons.mp h
    unfold Assoc.insert
    split
    · rename_i hlt
      exact h.cons_before hlt value
    · rename_i hnot
      split
      · rename_i heq
        exact List.pairwise_cons.mpr ⟨fun q hq => heq ▸ hfirst q hq, hrest⟩
      · rename_i hne
        exact h.cons_of_mem (lt_of_not_lt_of_ne hnot hne) (ih hrest) fun _ hq => mem_insert hq

/-- A key above all others is bound at the end. -/
theorem insert_of_forall_lt {value : α} (h : ∀ p ∈ l, p.1 < key) : insert key value l = l ++ [(key, value)] := by
  induction l with
  | nil => rfl
  | cons q rest ih =>
    have hlt := h q List.mem_cons_self
    have hne : key ≠ q.1 := fun he => String.lt_irrefl key (he ▸ hlt)
    unfold insert
    rw [if_neg (String.lt_asymm hlt), if_neg hne, ih fun p hp => h p (List.mem_cons_of_mem q hp)]
    rfl

/-- Binding keys in their order adds them one by one at the end. -/
theorem foldl_insert (h : Sorted (l ++ more)) : more.foldl (fun l p => insert p.1 p.2 l) l = l ++ more := by
  induction more generalizing l with
  | nil => exact (List.append_nil l).symm
  | cons p more ih =>
    have hlast : ∀ q ∈ l, q.1 < p.1 := fun q hq => (List.pairwise_append.mp h).2.2 q hq p List.mem_cons_self
    rw [List.foldl_cons, insert_of_forall_lt hlast, ih (by rwa [List.append_assoc]), List.append_assoc]
    rfl

/-- Where no key stands twice, looking one up finds its only value. -/
theorem lookup_eq_some_iff (h : (l.map Prod.fst).Nodup) {value : α} :
    l.lookup key = some value ↔ (key, value) ∈ l := by
  constructor
  · intro hlookup
    obtain ⟨before, after, rfl, -⟩ := List.lookup_eq_some_iff.mp hlookup
    exact List.mem_append_right _ List.mem_cons_self
  · intro hmem
    obtain ⟨before, after, rfl⟩ := List.append_of_mem hmem
    refine List.lookup_eq_some_iff.mpr ⟨before, after, rfl, fun p hp => ?_⟩
    rw [List.map_append, List.nodup_append] at h
    exact bne_iff_ne.mpr fun he =>
      h.2.2 p.1 (List.mem_map_of_mem hp) key (List.mem_map.mpr ⟨_, List.mem_cons_self, rfl⟩) he.symm

theorem lookup_eq_none (h : key ∉ l.map Prod.fst) : l.lookup key = none :=
  List.lookup_eq_none_iff.mpr fun _ hp => bne_iff_ne.mpr fun he => h (he ▸ List.mem_map_of_mem hp)

theorem lookup_cons_eq_ite {p : String × α} :
    (p :: l).lookup key = if p.1 = key then some p.2 else l.lookup key := by
  rw [List.lookup_cons]
  by_cases h : p.1 = key
  · rw [if_pos h, h, BEq.rfl]
  · rw [if_neg h, beq_false_of_ne (Ne.symm h)]

/-! ### Choices by their names -/

section
variable (name : α → String) (choices : List α) {n : String}

theorem isSome_lookup_names : ((choices.map fun a => (name a, a)).lookup n).isSome = true ↔ n ∈ choices.map name := by
  rw [List.lookup_isSome_iff]
  simp [@eq_comm _ n]

variable {name choices}

theorem name_of_lookup {a : α} (h : (choices.map fun a => (name a, a)).lookup n = some a) : name a = n := by
  obtain ⟨before, after, hsplit, -⟩ := List.lookup_eq_some_iff.mp h
  have hmem : (n, a) ∈ choices.map fun a => (name a, a) := hsplit ▸ List.mem_append_right before List.mem_cons_self
  obtain ⟨b, -, hb⟩ := List.mem_map.mp hmem
  obtain ⟨rfl, rfl⟩ := Prod.mk.inj hb
  rfl

end

/-! ### Slots that are filled from a list -/

section
variable {β δ : Type}

/-- The part that one name has. -/
def only (name : String) (v : α) (n : String) : Option α := if name = n then some v else none

/-- A slot that is filled from one part and then from others is filled from all of them. -/
theorem slot_fill {part : String → Option α} {name : String} (h : part name = none) (v : α) (n : String)
    (read : α → β) (b : β) : ((part n).map read).getD (((only name v n).map read).getD b) =
      ((if name = n then some v else part n).map read).getD b := by
  unfold only
  by_cases hn : name = n
  · rw [if_pos hn, if_pos hn, ← hn, h]
    rfl
  · rw [if_neg hn, if_neg hn]
    rfl

/-- Filling a draft from parts one after the other fills it from all of them. -/
theorem foldl_fill {fill : δ → (String → Option α) → δ} (hnone : ∀ d, fill d (fun _ => none) = d)
    (hfill : ∀ d name v part, part name = none →
      fill (fill d (only name v)) part = fill d fun n => if name = n then some v else part n)
    (h : (l.map Prod.fst).Nodup) (d : δ) :
    l.foldl (fun d m => fill d (only m.1 m.2)) d = fill d fun n => l.lookup n := by
  induction l generalizing d with
  | nil => exact (hnone d).symm
  | cons m l ih =>
    rw [List.map_cons, List.nodup_cons] at h
    rw [List.foldl_cons, ih h.2, hfill d m.1 m.2 _ (lookup_eq_none h.1)]
    simp only [lookup_cons_eq_ite]

end

end Assoc

end SchemaForge
