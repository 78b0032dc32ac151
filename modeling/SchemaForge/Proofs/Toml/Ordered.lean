import SchemaForge.Proofs.Assoc
import SchemaForge.Toml.Reader

/-! Tables whose entries stand in the order of their keys, each key once, with all that is in them. Entries come into
    a table under new keys only, or in the place of those that are there, so the reader has such tables all the time
    and yields one in the end. -/

namespace SchemaForge

namespace Toml

/-- Every table in the value holds its entries in the order of their keys, each key once. -/
inductive Value.Ordered : Value → Prop
  | string (s : String) : Ordered (.string s)
  | integer (i : Option Int) : Ordered (.integer i)
  | real (x : Option Float) : Ordered (.real x)
  | boolean (b : Bool) : Ordered (.boolean b)
  | datetime (text : String) : Ordered (.datetime text)
  | array {growing : Bool} {items : List Node} : (∀ n ∈ items, Ordered n.value) → Ordered (.array growing items)
  | table {origin : Origin} {entries : List (String × Entry)} : Assoc.Sorted entries →
    (∀ e ∈ entries, Ordered e.2.node.value) → Ordered (.table origin entries)

/-- The entries of a table of that kind. -/
structure Entries.Ordered (entries : Entries) : Prop where
  sorted : Assoc.Sorted entries
  value : ∀ e ∈ entries, e.2.node.value.Ordered

namespace Value.Ordered

theorem item {growing : Bool} {items : List Node} (h : Ordered (.array growing items)) :
    ∀ n ∈ items, n.value.Ordered := by
  cases h with
  | array hitems => exact hitems

theorem entries {origin : Origin} {entries : Entries} (h : Ordered (.table origin entries)) : entries.Ordered := by
  cases h with
  | table hsorted hvalues => exact ⟨hsorted, hvalues⟩

end Value.Ordered

namespace Entries
variable {entries entries' : Entries} {key : Key} {name : String} {node : Node} {entry : Entry} {span : Span}

namespace Ordered

theorem nil : Ordered [] := ⟨List.Pairwise.nil, fun _ he => absurd he List.not_mem_nil⟩

theorem table (h : entries.Ordered) (origin : Origin) : (Value.table origin entries).Ordered := .table h.sorted h.value

theorem lookup (h : entries.Ordered) (hentry : entries.lookup name = some entry) : entry.node.value.Ordered :=
  h.value _ ((Assoc.lookup_eq_some_iff h.sorted.nodup).mp hentry)

theorem insert (h : entries.Ordered) (hentry : entry.node.value.Ordered) :
    Entries.Ordered (Assoc.insert name entry entries) := by
  refine ⟨h.sorted.insert name entry, fun e he => ?_⟩
  rcases Assoc.mem_insert he with rfl | he
  · exact hentry
  · exact h.value e he

theorem addNew (h : entries.Ordered) (hnode : node.value.Ordered) (hadd : entries.addNew key node = some entries') :
    entries'.Ordered := by
  unfold Entries.addNew at hadd
  split at hadd
  · cases hadd
  · cases hadd
    exact h.insert hnode

theorem setNode {value : Value} (h : entries.Ordered) (hvalue : value.Ordered) :
    (Entries.setNode entries name entry value).Ordered := h.insert hvalue

/-- A change that keeps tables ordered may be made at the end of a path. -/
theorem updateAt {dotted : Bool} {change : Origin → Entries → Option Entries}
    (hchange : ∀ origin entries entries', entries.Ordered → change origin entries = some entries' → entries'.Ordered)
    {path : List Key} {origin : Origin} (h : entries.Ordered)
    (hupdate : Entries.updateAt dotted change path origin entries = some entries') : entries'.Ordered := by
  induction path generalizing origin entries entries' with
  | nil => exact hchange _ _ _ h hupdate
  | cons key path ih =>
    unfold Entries.updateAt at hupdate
    split at hupdate
    · obtain ⟨inner, hinner, hupdate⟩ := Option.bind_eq_some_iff.mp hupdate
      cases hupdate
      exact h.insert ((ih nil hinner).table _)
    · rename_i entry hentry
      have hvalue := h.lookup hentry
      split at hupdate
      · rename_i origin inner hold
        rw [hold] at hvalue
        split at hupdate
        · cases hupdate
        · obtain ⟨inner', hinner, hupdate⟩ := Option.bind_eq_some_iff.mp hupdate
          cases hupdate
          exact h.setNode ((ih hvalue.entries hinner).table _)
      · rename_i items hold
        rw [hold] at hvalue
        split at hupdate
        · rename_i origin inner span before hreverse
          have hitem : ∀ n ∈ ⟨.table origin inner, span⟩ :: before, n.value.Ordered :=
            fun n hn => hvalue.item n (List.mem_reverse.mp (hreverse ▸ hn))
          obtain ⟨inner', hinner, hupdate⟩ := Option.bind_eq_some_iff.mp hupdate
          cases hupdate
          have hlast := ih (hitem _ List.mem_cons_self).entries hinner
          refine h.setNode (.array fun n hn => ?_)
          rcases List.mem_cons.mp (List.mem_reverse.mp hn) with rfl | hn
          · exact hlast.table _
          · exact hitem n (List.mem_cons_of_mem _ hn)
        · cases hupdate
      · cases hupdate

theorem assign {path : List Key} {origin : Origin} (h : entries.Ordered) (hnode : node.value.Ordered)
    (hassign : Entries.assign path key node origin entries = some entries') : entries'.Ordered := by
  refine h.updateAt (fun origin entries entries' h hchange => ?_) hassign
  split at hchange
  · cases hchange
  · exact h.addNew hnode hchange

theorem openTable (h : entries.Ordered) (hopen : entries.openTable key span = some entries') : entries'.Ordered := by
  unfold Entries.openTable at hopen
  split at hopen
  · cases hopen
    exact h.insert (nil.table _)
  · rename_i hentry
    cases hopen
    exact h.insert ((h.lookup hentry).entries.table _)
  · cases hopen

theorem openItem (h : entries.Ordered) (hopen : entries.openItem key span = some entries') : entries'.Ordered := by
  unfold Entries.openItem at hopen
  split at hopen
  · cases hopen
    refine h.insert (.array fun n hn => ?_)
    rw [List.mem_singleton.mp hn]
    exact nil.table _
  · rename_i hentry
    cases hopen
    refine h.insert (.array fun n hn => ?_)
    rcases List.mem_append.mp hn with hn | hn
    · exact (h.lookup hentry).item n hn
    · rw [List.mem_singleton.mp hn]
      exact nil.table _
  · cases hopen

end Ordered

end Entries

/-! ### Scalars -/

theorem ordered_real? {negative : Bool} {cs : List Char} {v : Value} (h : real? negative cs = some v) : v.Ordered := by
  unfold real? at h
  obtain ⟨digits, -, h⟩ := Option.bind_eq_some_iff.mp h
  simp only [Option.bind_eq_bind] at h
  -- A fraction and an exponent may each be there or not.
  split at h
  all_goals
    obtain ⟨fraction, -, h⟩ := Option.bind_eq_some_iff.mp h
    split at h
    all_goals
      obtain ⟨exponent, -, h⟩ := Option.bind_eq_some_iff.mp h
      cases h
      exact .real _

theorem ordered_decimal? {negative : Bool} {cs : List Char} {v : Value} (h : decimal? negative cs = some v) :
    v.Ordered := by
  unfold decimal? at h
  split at h
  · exact ordered_real? h
  · unfold integer? at h
    simp only at h
    split at h
    · cases h
    · split at h
      · cases h
        exact .integer _
      · cases h

theorem ordered_based? {base : Nat} {isDigit : Char → Bool} {cs : List Char} {v : Value}
    (h : based? base isDigit cs = some v) : v.Ordered := by
  unfold based? at h
  split at h
  · cases h
    exact .integer _
  · obtain ⟨digits, -, rfl⟩ := Option.map_eq_some_iff.mp h
    exact .integer _

theorem ordered_signed {negative : Bool} {cs : List Char} {v : Value} (h : scalar?.signed negative cs = some v) :
    v.Ordered := by
  unfold scalar?.signed at h
  split at h
  · cases h
    exact .real _
  · cases h
    exact .real _
  · exact ordered_decimal? h

/-- A scalar holds no table. -/
theorem ordered_scalar? {cs : List Char} {v : Value} (h : scalar? cs = some v) : v.Ordered := by
  unfold scalar? at h
  split at h
  · cases h
    exact .boolean _
  · cases h
    exact .boolean _
  · exact ordered_based? h
  · exact ordered_based? h
  · exact ordered_based? h
  · exact ordered_signed h
  · exact ordered_signed h
  · cases hsigned : scalar?.signed false cs with
    | some w =>
      rw [hsigned] at h
      cases h
      exact ordered_signed hsigned
    | none =>
      rw [hsigned] at h
      obtain ⟨text, -, rfl⟩ := Option.map_eq_some_iff.mp h
      exact .datetime _

end Toml

end SchemaForge
