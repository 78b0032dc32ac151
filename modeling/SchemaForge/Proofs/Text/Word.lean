/-! Words, of letters, digits and low lines. A word in front of another character ends where that character
    stands, so a text that starts with a word and such a character determines both. -/

namespace SchemaForge
namespace Text

/-- The letters and digits of ASCII, and the low line. -/
def isWordChar (c : Char) : Bool := c.isAlphanum || c = '_'

/-- The text has no characters but those of words. -/
def IsWord (s : String) : Prop := ∀ c ∈ s.toList, isWordChar c = true

-- Named, since the search may come upon the instance that runs over all characters.
instance (s : String) : Decidable (IsWord s) := List.decidableBAll (fun c => isWordChar c = true) s.toList

theorem dropWhile_word {s : String} (hs : IsWord s) {c : Char} (hc : isWordChar c = false) (r : List Char) :
    (s.toList ++ c :: r).dropWhile isWordChar = c :: r := by
  rw [List.dropWhile_append_of_pos hs, List.dropWhile_cons_of_neg (by rw [hc]; decide)]

theorem word_inj {s t : String} (hs : IsWord s) (ht : IsWord t) {c d : Char} (hc : isWordChar c = false)
    (hd : isWordChar d = false) {r r' : List Char} (h : s.toList ++ c :: r = t.toList ++ d :: r') :
    s = t ∧ c :: r = d :: r' := by
  have hrest : c :: r = d :: r' := by
    rw [← dropWhile_word hs hc, h, dropWhile_word ht hd]
  rw [hrest] at h
  exact ⟨String.toList_injective (List.append_cancel_right h), hrest⟩

/-- The first character of a text that is no part of a word. -/
def afterWord (cs : List Char) : Option Char := (cs.dropWhile isWordChar).head?

theorem afterWord_append {cs : List Char} {c : Char} (h : afterWord cs = some c) (r : List Char) :
    afterWord (cs ++ r) = some c := by
  unfold afterWord at h ⊢
  rw [List.dropWhile_append]
  cases hrest : cs.dropWhile isWordChar with
  | nil => simp [hrest] at h
  | cons d rest => simpa [hrest] using h

theorem afterWord_word {s : String} (hs : IsWord s) {c : Char} (hc : isWordChar c = false) (r : List Char) :
    afterWord (s.toList ++ c :: r) = some c := by
  rw [afterWord, dropWhile_word hs hc, List.head?_cons]

end Text

end SchemaForge
