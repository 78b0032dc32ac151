import SchemaForge.Json.Basic
import SchemaForge.Proofs.Assoc

/-! Values whose objects hold their members in the order of the keys, each key once. The canonical form of any
    value is one of them, so what is decoded never has two values for one key. -/

namespace SchemaForge

namespace Json

/-- Every object in the value holds its members in the order of the keys, each key once. -/
inductive Ordered : Json → Prop
  | null : Ordered .null
  | bool (b : Bool) : Ordered (.bool b)
  | number (n : Number) : Ordered (.number n)
  | string (s : String) : Ordered (.string s)
  | array {items : List Json} : (∀ v ∈ items, Ordered v) → Ordered (.array items)
  | object {members : List (String × Json)} : Assoc.Sorted members → (∀ m ∈ members, Ordered m.2) →
    Ordered (.object members)

namespace Ordered

theorem item {items : List Json} (h : Ordered (.array items)) {v : Json} (hv : v ∈ items) : v.Ordered := by
  cases h with
  | array hitems => exact hitems v hv

theorem nodup_keys {members : List (String × Json)} (h : Ordered (.object members)) :
    (members.map Prod.fst).Nodup := by
  cases h with
  | object hsorted _ => exact hsorted.nodup

theorem member {members : List (String × Json)} (h : Ordered (.object members)) {m : String × Json}
    (hm : m ∈ members) : m.2.Ordered := by
  cases h with
  | object _ hmembers => exact hmembers m hm

theorem member? {v w : Json} {key : String} (h : v.Ordered) (hw : v.member? key = some w) : w.Ordered := by
  cases v with
  | object members => exact h.member ((Assoc.lookup_eq_some_iff h.nodup_keys).mp hw)
  | _ => cases hw

end Ordered

mutual

/-- The canonical form of a value is ordered. -/
theorem ordered_canonical : ∀ v : Json, v.canonical.Ordered
  | .null => .null
  | .bool b => .bool b
  | .number n => .number n
  | .string s => .string s
  | .array items => .array (ordered_canonicalItems items)
  | .object members => .object (sorted_canonicalMembers members) (ordered_canonicalMembers members)

theorem ordered_canonicalItems : ∀ items : List Json, ∀ v ∈ canonicalItems items, v.Ordered
  | [], _, hv => absurd hv List.not_mem_nil
  | item :: items, v, hv => by
    rcases List.mem_cons.mp hv with rfl | hv
    · exact ordered_canonical item
    · exact ordered_canonicalItems items v hv

theorem ordered_canonicalMembers : ∀ members : List (String × Json), ∀ m ∈ canonicalMembers members, m.2.Ordered
  | [], _, hm => absurd hm List.not_mem_nil
  | (_, v) :: members, m, hm => by
    rcases Assoc.mem_insertNew hm with rfl | hm
    · exact ordered_canonical v
    · exact ordered_canonicalMembers members m hm

theorem sorted_canonicalMembers : ∀ members : List (String × Json), Assoc.Sorted (canonicalMembers members)
  | [] => List.Pairwise.nil
  | (key, v) :: members => (sorted_canonicalMembers members).insertNew key v.canonical

end

end Json

end SchemaForge
