import Mathlib.Data.List.Forall2

/-! Computations that may fail. A sequence of them succeeds when every one does, and then yields what they
    yield. -/

namespace SchemaForge
variable {ε α β : Type}

/-- A computation succeeds when its first step does and the rest does from what the step yields. -/
theorem bind_eq_ok {x : Except ε α} {f : α → Except ε β} {b : β} :
    (x >>= f) = .ok b ↔ ∃ a, x = .ok a ∧ f a = .ok b := by
  cases x with
  | error e => exact ⟨fun h => (nomatch h), fun ⟨_, h, _⟩ => (nomatch h)⟩
  | ok a => exact ⟨fun h => ⟨a, rfl, h⟩, fun ⟨_, h, h'⟩ => by cases h; exact h'⟩

/-- What a computation yields goes through a function. -/
theorem map_eq_ok_iff {x : Except ε α} {taken : Prop} {a : α} (h : ∀ a', x = .ok a' ↔ taken ∧ a' = a) {g : α → β}
    {b : β} : g <$> x = .ok b ↔ taken ∧ b = g a := by
  rw [map_eq_pure_bind, bind_eq_ok]
  constructor
  · rintro ⟨a', ha, hb⟩
    obtain ⟨htaken, rfl⟩ := (h a').mp ha
    exact ⟨htaken, (Except.ok.inj hb).symm⟩
  · rintro ⟨htaken, rfl⟩
    exact ⟨a, (h a).mpr ⟨htaken, rfl⟩, rfl⟩

theorem mapM_eq_ok_iff {f : α → Except ε β} {items : List α} {results : List β} :
    items.mapM f = .ok results ↔ List.Forall₂ (fun a b => f a = .ok b) items results := by
  induction items generalizing results with
  | nil =>
    rw [List.mapM_nil, List.forall₂_nil_left_iff]
    exact ⟨fun h => by cases h; rfl, fun h => by rw [h]; rfl⟩
  | cons a items ih =>
    rw [List.mapM_cons, bind_eq_ok, List.forall₂_cons_left_iff]
    constructor
    · rintro ⟨b, hb, h⟩
      obtain ⟨rest, hrest, h⟩ := bind_eq_ok.mp h
      cases h
      exact ⟨b, rest, hb, ih.mp hrest, rfl⟩
    · rintro ⟨b, rest, hb, hrest, rfl⟩
      exact ⟨b, hb, bind_eq_ok.mpr ⟨rest, ih.mpr hrest, rfl⟩⟩

/-- Items that are each taken under a condition and turned into something are all taken under their conditions. -/
theorem mapM_eq_ok_iff_map {f : α → Except ε β} {taken : α → Prop} {g : α → β} {items : List α} {results : List β}
    (h : ∀ a ∈ items, ∀ b, f a = .ok b ↔ taken a ∧ b = g a) :
    items.mapM f = .ok results ↔ (∀ a ∈ items, taken a) ∧ results = items.map g := by
  rw [mapM_eq_ok_iff]
  induction items generalizing results with
  | nil => simp
  | cons a items ih =>
    simp only [List.forall₂_cons_left_iff, ih fun a ha => h a (List.mem_cons_of_mem _ ha), h a List.mem_cons_self,
      List.forall_mem_cons, List.map_cons]
    constructor
    · rintro ⟨b, rest, ⟨ha, rfl⟩, ⟨hall, rfl⟩, rfl⟩
      exact ⟨⟨ha, hall⟩, rfl⟩
    · rintro ⟨⟨ha, hall⟩, rfl⟩
      exact ⟨_, _, ⟨ha, rfl⟩, ⟨hall, rfl⟩, rfl⟩

/-- Steps that are each taken under a condition on the item alone are all taken under their conditions. -/
theorem foldlM_eq_ok_iff {f : β → α → Except ε β} {taken : α → Prop} {g : β → α → β} {items : List α} {b b' : β}
    (h : ∀ a ∈ items, ∀ b b', f b a = .ok b' ↔ taken a ∧ b' = g b a) :
    items.foldlM f b = .ok b' ↔ (∀ a ∈ items, taken a) ∧ b' = items.foldl g b := by
  induction items generalizing b with
  | nil =>
    rw [List.foldlM_nil]
    exact ⟨fun h => by cases h; exact ⟨fun _ ha => absurd ha List.not_mem_nil, rfl⟩, fun h => by rw [h.2]; rfl⟩
  | cons a items ih =>
    rw [List.foldlM_cons, bind_eq_ok, List.forall_mem_cons, List.foldl_cons]
    simp only [ih fun a ha => h a (List.mem_cons_of_mem _ ha), h a List.mem_cons_self]
    constructor
    · rintro ⟨c, ⟨ha, rfl⟩, hall, rfl⟩
      exact ⟨⟨ha, hall⟩, rfl⟩
    · rintro ⟨⟨ha, hall⟩, rfl⟩
      exact ⟨_, ⟨ha, rfl⟩, hall, rfl⟩

/-- Items that a computation takes alike one by one are taken alike as a whole. -/
theorem foldlM_congr {f : β → α → Except ε β} {items items' : List α}
    (h : List.Forall₂ (fun a a' => ∀ b, f b a = f b a') items items') (b : β) :
    items.foldlM f b = items'.foldlM f b := by
  induction h generalizing b with
  | nil => rfl
  | cons ha _ ih => simp only [List.foldlM_cons, ha, ih]

theorem mapM_congr {f : α → Except ε β} {items items' : List α}
    (h : List.Forall₂ (fun a a' => f a = f a') items items') : items.mapM f = items'.mapM f := by
  induction h with
  | nil => rfl
  | cons ha _ ih => simp only [List.mapM_cons, ha, ih]

/-- Steps that change nothing can be left out. -/
theorem foldlM_filter_of_idle {f : β → α → Except ε β} {p : α → Bool} (h : ∀ b a, p a = false → f b a = .ok b)
    (items : List α) (b : β) : (items.filter p).foldlM f b = items.foldlM f b := by
  have hstep : (fun b a => if p a = true then f b a else pure b) = f := by
    funext b a
    by_cases hp : p a = true
    · rw [if_pos hp]
    · rw [if_neg hp, h b a (eq_false_of_ne_true hp)]
      rfl
  rw [List.foldlM_filter, hstep]

end SchemaForge
