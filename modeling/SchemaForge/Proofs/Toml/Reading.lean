import SchemaForge.Proofs.Toml.Ordered

/-! Reading keeps tables ordered. A token changes at most what has to come next, or it ends a key, a header or a value;
    each of these puts a value into the innermost open table or opens a table, and both keep the order. -/

namespace SchemaForge

namespace Toml

def Frame.Ordered : Frame → Prop
  | .array _ items => ∀ n ∈ items, n.value.Ordered
  | .table _ entries _ _ => entries.Ordered

/-- The tables of the file so far are ordered, and so are the open ones. -/
structure Reading.Ordered (r : Reading) : Prop where
  root : r.root.Ordered
  stack : ∀ f ∈ r.stack, f.Ordered

namespace Reading
variable {r r' : Reading} {token : Token} {span : Span}

/-! ### What a token can do -/

/-- What has to come next is another thing, or the token closes an array or an inline table. -/
theorem takeAfter_cases (h : r.takeAfter token span = some r') :
    (∃ w, r' = { r with want := w }) ∨ r.close span.stop = some r' := by
  unfold takeAfter at h
  split at h
  case h_8 | h_13 => exact Or.inr h
  case h_14 => cases h
  all_goals exact Or.inl ⟨_, (Option.some.inj h).symm⟩

/-- What a token can do to a reading. -/
inductive Change (r : Reading) (token : Token) (span : Span) (r' : Reading) : Prop
  | want (w : Want) : r' = { r with want := w } → Change r token span r'
  | key {parts : List Key} : r.takeKey parts = some r' → Change r token span r'
  | header {grows : Bool} {start : Nat} {parts : List Key} : r.takeHeader grows start span.stop parts = some r' →
    Change r token span r'
  | value : r.takeValue token span = some r' → Change r token span r'
  | scalar {chars : List Char} {place : Span} : r.endScalar chars place token span = some r' → Change r token span r'
  | close : r.close span.stop = some r' → Change r token span r'

theorem step_change (h : r.step token span = some r') : Change r token span r' := by
  unfold step at h
  split at h
  all_goals first
    | exact .want _ (Option.some.inj h).symm
    | exact .key h
    | exact .header h
    | exact .value h
    | exact .scalar h
    | exact .close h
    | obtain ⟨k, -, rfl⟩ := Option.map_eq_some_iff.mp h
      exact .want _ rfl
    | split at h
      · exact .want _ (Option.some.inj h).symm
      · cases h
    | rcases takeAfter_cases h with ⟨w, rfl⟩ | h
      · exact .want w rfl
      · exact .close h

/-! ### What stays ordered -/

namespace Ordered

theorem start : Reading.start.Ordered := ⟨.nil, fun _ hf => absurd hf List.not_mem_nil⟩

theorem frame (h : r.Ordered) {frame : Frame} {stack : List Frame} (hstack : r.stack = frame :: stack) :
    frame.Ordered ∧ ∀ f ∈ stack, f.Ordered := by
  have hall := h.stack
  rw [hstack] at hall
  exact ⟨hall frame List.mem_cons_self, fun f hf => hall f (List.mem_cons_of_mem _ hf)⟩

theorem assign {node : Node} (h : r.Ordered) (hnode : node.value.Ordered) (hassign : r.assign node = some r') :
    r'.Ordered := by
  obtain ⟨root, hroot, hassign⟩ := Option.bind_eq_some_iff.mp hassign
  cases hassign
  exact ⟨h.root.updateAt (fun _ _ _ hentries => hentries.assign hnode) hroot, h.stack⟩

theorem complete {node : Node} (h : r.Ordered) (hnode : node.value.Ordered) (hcomplete : r.complete node = some r') :
    r'.Ordered := by
  unfold Reading.complete at hcomplete
  split at hcomplete
  · exact h.assign hnode hcomplete
  · rename_i start items stack hstack
    obtain ⟨hitems, hrest⟩ := h.frame hstack
    cases hcomplete
    refine ⟨h.root, List.forall_mem_cons.mpr ⟨fun n hn => ?_, hrest⟩⟩
    rcases List.mem_cons.mp hn with rfl | hn
    · exact hnode
    · exact hitems n hn
  · rename_i start entries path key stack hstack
    obtain ⟨hentries, hrest⟩ := h.frame hstack
    obtain ⟨entries', hassign, hcomplete⟩ := Option.bind_eq_some_iff.mp hcomplete
    cases hcomplete
    exact ⟨h.root, List.forall_mem_cons.mpr ⟨hentries.assign hnode hassign, hrest⟩⟩

theorem close {stop : Nat} (h : r.Ordered) (hclose : r.close stop = some r') : r'.Ordered := by
  unfold Reading.close at hclose
  split at hclose
  · rename_i start items stack hstack
    obtain ⟨hitems, hrest⟩ := h.frame hstack
    have houter : Reading.Ordered { r with stack } := ⟨h.root, hrest⟩
    exact houter.complete (.array fun n hn => hitems n (List.mem_reverse.mp hn)) hclose
  · rename_i start entries path key stack hstack
    obtain ⟨hentries, hrest⟩ := h.frame hstack
    have houter : Reading.Ordered { r with stack } := ⟨h.root, hrest⟩
    exact houter.complete (Entries.Ordered.table hentries _) hclose
  · cases hclose

theorem openFrame {frame : Frame} {w : Want} (h : r.Ordered) (hframe : frame.Ordered)
    (hopen : r.openFrame frame w = some r') : r'.Ordered := by
  unfold Reading.openFrame at hopen
  split at hopen
  · cases hopen
  · cases hopen
    exact ⟨h.root, List.forall_mem_cons.mpr ⟨hframe, h.stack⟩⟩

theorem takeValue (h : r.Ordered) (htake : r.takeValue token span = some r') : r'.Ordered := by
  unfold Reading.takeValue at htake
  split at htake
  · exact h.complete (.string _) htake
  · exact h.complete (.string _) htake
  · cases htake
    exact ⟨h.root, h.stack⟩
  · have hempty : (Frame.array span.start []).Ordered := fun _ hn => absurd hn List.not_mem_nil
    exact h.openFrame hempty htake
  · have hempty : (Frame.table span.start [] [] ⟨"", span⟩).Ordered := Entries.Ordered.nil
    exact h.openFrame hempty htake
  · cases htake

theorem takeKey {parts : List Key} (h : r.Ordered) (htake : r.takeKey parts = some r') : r'.Ordered := by
  unfold Reading.takeKey at htake
  split at htake
  · cases htake
  · split at htake
    · cases htake
    · split at htake
      · cases htake
        exact ⟨h.root, h.stack⟩
      · rename_i start entries _ _ stack hstack
        obtain ⟨hentries, hrest⟩ := h.frame hstack
        cases htake
        exact ⟨h.root, List.forall_mem_cons.mpr ⟨hentries, hrest⟩⟩
      · cases htake

theorem takeHeader {grows : Bool} {start stop : Nat} {parts : List Key} (h : r.Ordered)
    (htake : r.takeHeader grows start stop parts = some r') : r'.Ordered := by
  unfold Reading.takeHeader at htake
  cases parts with
  | nil => cases htake
  | cons key before =>
    simp only [Option.bind_eq_bind] at htake
    split at htake
    · cases htake
    · obtain ⟨root, hroot, htake⟩ := Option.bind_eq_some_iff.mp htake
      cases htake
      refine ⟨h.root.updateAt (fun origin entries entries' hentries hchange => ?_) hroot, h.stack⟩
      split at hchange
      · exact hentries.openItem hchange
      · exact hentries.openTable hchange

theorem takeAfter (h : r.Ordered) (htake : r.takeAfter token span = some r') : r'.Ordered := by
  rcases takeAfter_cases htake with ⟨w, rfl⟩ | hclose
  · exact ⟨h.root, h.stack⟩
  · exact h.close hclose

theorem step (h : r.Ordered) (hstep : r.step token span = some r') : r'.Ordered := by
  cases step_change hstep with
  | want w he =>
    subst he
    exact ⟨h.root, h.stack⟩
  | key htake => exact h.takeKey htake
  | header htake => exact h.takeHeader htake
  | value htake => exact h.takeValue htake
  | scalar hend =>
    obtain ⟨value, hvalue, hend⟩ := Option.bind_eq_some_iff.mp hend
    obtain ⟨r₁, hcomplete, htake⟩ := Option.bind_eq_some_iff.mp hend
    exact (h.complete (ordered_scalar? hvalue) hcomplete).takeAfter htake
  | close hclose => exact h.close hclose

theorem finish {entries : Entries} (h : r.Ordered) (hfinish : r.finish = some entries) : entries.Ordered := by
  unfold Reading.finish at hfinish
  split at hfinish
  case h_1 | h_2 =>
    cases hfinish
    exact h.root
  case h_5 => cases hfinish
  all_goals
    split at hfinish
    · obtain ⟨value, hvalue, hfinish⟩ := Option.bind_eq_some_iff.mp hfinish
      obtain ⟨r₁, hcomplete, hfinish⟩ := Option.bind_eq_some_iff.mp hfinish
      cases hfinish
      exact (h.complete (ordered_scalar? hvalue) hcomplete).root
    · cases hfinish

/-- The reader yields an ordered table, however long the text is. -/
theorem run {entries : Entries} {offset : Nat} {cs : List Char} (h : r.Ordered)
    (hrun : r.run offset cs = some entries) : entries.Ordered := by
  fun_induction Reading.run r offset cs with
  | case1 r offset => exact h.finish hrun
  | case2 => cases hrun
  | case3 => cases hrun
  | case4 r offset c rest token count htoken stop r' hstep ih => exact ih (h.step hstep) hrun

end Ordered

end Reading

/-- A file that is well formed writes an ordered table. -/
theorem ordered_parse? {text : String} {entries : Entries} (h : parse? text = some entries) : entries.Ordered := by
  unfold parse? at h
  split at h
  · exact Reading.Ordered.start.run h
  · exact Reading.Ordered.start.run h

end Toml

end SchemaForge
