import Mathlib.Data.List.Forall2
import SchemaForge.Proofs.Json.Ordered

/-! The members of an object by their keys. Of the values that are written under one key the last counts, and the
    canonical form has just that one. Two lists of members in the order of their keys that have the same keys
    stand side by side. -/

namespace SchemaForge

namespace Assoc
variable {α β : Type} {l : List (String × α)} {l' : List (String × β)} {key : String}

theorem mem_keys_iff : key ∈ l.map Prod.fst ↔ (l.lookup key).isSome = true := by
  simp only [List.mem_map, List.lookup_isSome_iff, beq_iff_eq, @eq_comm _ key]

theorem Sorted.lookup_insertNew (h : Sorted l) (k : String) (value : α) :
    (Assoc.insertNew k value l).lookup key = if k = key then some ((l.lookup key).getD value) else l.lookup key := by
  induction l with
  | nil => exact lookup_cons_eq_ite
  | cons p rest ih =>
    obtain ⟨hfirst, hrest⟩ := List.pairwise_cons.mp h
    unfold Assoc.insertNew
    split
    · rename_i hlt
      -- A key below the first one is not there.
      have hnone : k = key → List.lookup key (p :: rest) = none := by
        rintro rfl
        refine lookup_eq_none fun hmem => ?_
        rcases List.mem_cons.mp hmem with rfl | hmem
        · exact String.lt_irrefl _ hlt
        · obtain ⟨q, hq, rfl⟩ := List.mem_map.mp hmem
          exact String.lt_irrefl _ (String.lt_trans hlt (hfirst q hq))
      rw [lookup_cons_eq_ite]
      split
      · rename_i hk
        rw [hnone hk, Option.getD_none]
      · rfl
    · split
      · rename_i hk
        subst hk
        split
        · rename_i hkey
          rw [lookup_cons_eq_ite, if_pos hkey, Option.getD_some]
        · rfl
      · rename_i hne
        rw [lookup_cons_eq_ite, lookup_cons_eq_ite, ih hrest]
        by_cases hk : k = key
        · have hfirst' : p.1 ≠ key := fun he => hne (hk.trans he.symm)
          rw [if_neg hfirst', if_neg hfirst']
        · rw [if_neg hk, if_neg hk]

/-- Lists in the order of their keys that have the same keys have them in the same places. -/
theorem Sorted.keys_eq (h : Sorted l) (h' : Sorted l') (hkeys : ∀ key, key ∈ l.map Prod.fst ↔ key ∈ l'.map Prod.fst) :
    l.map Prod.fst = l'.map Prod.fst := by
  have hl : (l.map Prod.fst).Pairwise (· < ·) := List.pairwise_map.mpr h
  have hl' : (l'.map Prod.fst).Pairwise (· < ·) := List.pairwise_map.mpr h'
  have hperm := (List.perm_ext_iff_of_nodup h.nodup h'.nodup).mpr hkeys
  exact hperm.eq_of_pairwise (fun a b _ _ hab hba => absurd (String.lt_trans hab hba) (String.lt_irrefl a)) hl hl'

/-- Lists with the same keys in the same places agree place by place if they agree key by key. -/
theorem forall₂_of_keys_eq {R : String → α → β → Prop} {l : List (String × α)} {l' : List (String × β)}
    (h : l.map Prod.fst = l'.map Prod.fst) (hR : ∀ key a b, (key, a) ∈ l → (key, b) ∈ l' → R key a b) :
    List.Forall₂ (fun p q => p.1 = q.1 ∧ R p.1 p.2 q.2) l l' := by
  induction l generalizing l' with
  | nil =>
    rw [List.map_nil, eq_comm, List.map_eq_nil_iff] at h
    rw [h]
    exact .nil
  | cons p l ih =>
    cases l' with
    | nil => cases h
    | cons q l' =>
      obtain ⟨hkey, hrest⟩ := List.cons.inj h
      refine .cons ⟨hkey, hR p.1 p.2 q.2 List.mem_cons_self ?_⟩
        (ih hrest fun key a b ha hb => hR key a b (List.mem_cons_of_mem p ha) (List.mem_cons_of_mem q hb))
      rw [hkey]
      exact List.mem_cons_self

end Assoc

namespace Json

/-- The value that an object has under a key; of several the one that is written last. -/
def last? (key : String) : Json → Option Json
  | object members => members.reverse.lookup key
  | _ => none

theorem last?_cons (key k : String) (v : Json) (members : List (String × Json)) :
    (object ((k, v) :: members)).last? key = ((object members).last? key).or (if k = key then some v else none) := by
  rw [last?, List.reverse_cons, List.lookup_append, Assoc.lookup_cons_eq_ite, List.lookup_nil]
  rfl

/-- Where no key stands twice the order of the members does not matter. -/
theorem last?_perm {ms ns : List (String × Json)} (h : ms.Perm ns) (hnodup : (ms.map Prod.fst).Nodup) (key : String) :
    (object ms).last? key = (object ns).last? key := by
  have hms : (ms.reverse.map Prod.fst).Nodup := (ms.reverse_perm.map Prod.fst).nodup_iff.mpr hnodup
  have hperm : ms.reverse.Perm ns.reverse := ms.reverse_perm.trans (h.trans ns.reverse_perm.symm)
  have hns : (ns.reverse.map Prod.fst).Nodup := (hperm.map Prod.fst).nodup_iff.mp hms
  refine Option.ext fun v => ?_
  rw [last?, last?, Assoc.lookup_eq_some_iff hms, Assoc.lookup_eq_some_iff hns, hperm.mem_iff]

theorem lookup_canonicalMembers (key : String) (members : List (String × Json)) :
    (canonicalMembers members).lookup key = (members.reverse.lookup key).map canonical := by
  induction members with
  | nil => rfl
  | cons m members ih =>
    obtain ⟨k, v⟩ := m
    rw [canonicalMembers, (sorted_canonicalMembers members).lookup_insertNew, ih, List.reverse_cons,
      List.lookup_append, Assoc.lookup_cons_eq_ite, List.lookup_nil]
    by_cases hk : k = key
    · rw [if_pos hk, if_pos hk]
      cases members.reverse.lookup key <;> rfl
    · rw [if_neg hk, if_neg hk, Option.or_none]

theorem member?_canonical (key : String) (v : Json) : v.canonical.member? key = (v.last? key).map canonical := by
  cases v with
  | object members => exact lookup_canonicalMembers key members
  | _ => rfl

theorem mem_keys_canonicalMembers {key : String} {members : List (String × Json)} :
    key ∈ (canonicalMembers members).map Prod.fst ↔ ((object members).last? key).isSome = true := by
  rw [Assoc.mem_keys_iff, lookup_canonicalMembers, Option.isSome_map]
  rfl

theorem mem_canonicalMembers {key : String} {w : Json} {members : List (String × Json)} :
    (key, w) ∈ canonicalMembers members ↔ ∃ v, (object members).last? key = some v ∧ v.canonical = w := by
  rw [← Assoc.lookup_eq_some_iff (sorted_canonicalMembers members).nodup, lookup_canonicalMembers,
    Option.map_eq_some_iff]
  rfl

theorem canonicalItems_eq_map (items : List Json) : canonicalItems items = items.map canonical := by
  induction items with
  | nil => rfl
  | cons v items ih => rw [canonicalItems, ih, List.map_cons]

end Json

end SchemaForge
