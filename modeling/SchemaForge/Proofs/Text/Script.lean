import SchemaForge.Json.Syntax
import SchemaForge.Proofs.Text.Lines

/-! String literals in single quotes as a script reads them, with all escapes of the language and with UTF-16 code units
    for values. An escape is longer than what it denotes, so a text that was put between quotes as it is denotes
    itself exactly when it has no quote, no backslash and no line break: after an escape the value lags behind the
    text, and nothing catches up. -/

namespace SchemaForge
namespace Script

/-- The UTF-16 code units of a code point. -/
def pointUnits (n : Nat) : List Nat :=
  if n < 0x10000 then [n] else [0xD800 + (n - 0x10000) / 0x400, 0xDC00 + (n - 0x10000) % 0x400]

def charUnits (c : Char) : List Nat := pointUnits c.toNat

/-- The UTF-16 code units of a text. -/
def units (cs : List Char) : List Nat := cs.flatMap charUnits

/-! ### Reading -/

/-- Where a reader stands between the quotes of a literal. -/
inductive Mode where
  | plain
  /-- After a backslash. -/
  | escape
  /-- After a backslash and a carriage return, which go with a line feed that follows. -/
  | lineBreak
  /-- After an escaped zero, which no digit may follow. -/
  | null
  /-- In an escape by hexadecimal digits: how many follow the next one, and the number so far. -/
  | digits (left value : Nat)
  /-- After a backslash and `u`. -/
  | unicode
  /-- In the braces of an escape: the number so far, if there was a digit. -/
  | point (value : Option Nat)

/-- Whether a quote ends the literal here. -/
def Mode.closes : Mode → Bool
  | .plain | .lineBreak | .null => true
  | _ => false

/-- Outside escapes a character stands for itself. Line breaks are refused. -/
def stepPlain (c : Char) : Option (Mode × List Nat) :=
  if c = '\\' then some (.escape, [])
  else if c = '\n' ∨ c = '\r' then none
  else some (.plain, charUnits c)

def stepDigits (left value : Nat) (c : Char) : Option (Mode × List Nat) := do
  let digit ← Json.hexDigit? c
  match left with
  | 0 => return (.plain, [value * 16 + digit])
  | left + 1 => return (.digits left (value * 16 + digit), [])

/-- A number in braces is that of a code point. -/
def stepPoint (value : Option Nat) (c : Char) : Option (Mode × List Nat) :=
  if c = '\x7d' then value.map fun n => (.plain, pointUnits n)
  else do
    let digit ← Json.hexDigit? c
    let n := value.getD 0 * 16 + digit
    if n ≤ 0x10FFFF then return (.point (some n), []) else none

/-- The control character that an escaped letter stands for. -/
def control? : Char → Option Nat
  | 'b' => some 8
  | 't' => some 9
  | 'n' => some 10
  | 'v' => some 11
  | 'f' => some 12
  | 'r' => some 13
  | _ => none

/-- The character after a backslash. A line break stands for nothing; a digit is refused, save a zero alone; any
    character that starts no longer escape and is no control letter stands for itself. -/
def stepEscape (c : Char) : Option (Mode × List Nat) :=
  if c = '\r' then some (.lineBreak, [])
  else if c = '\n' ∨ c = '\u2028' ∨ c = '\u2029' then some (.plain, [])
  else if c = 'x' then some (.digits 1 0, [])
  else if c = 'u' then some (.unicode, [])
  else if c = '0' then some (.null, [0])
  else if c.isDigit then none
  else match control? c with
    | some n => some (.plain, [n])
    | none => some (.plain, charUnits c)

/-- Reads one character that does not end the literal: where the reader stands then, and what it has denoted. -/
def step : Mode → Char → Option (Mode × List Nat)
  | .plain, c => stepPlain c
  | .escape, c => stepEscape c
  | .lineBreak, c => if c = '\n' then some (.plain, []) else stepPlain c
  | .null, c => if c.isDigit then none else stepPlain c
  | .digits left value, c => stepDigits left value c
  | .unicode, c => if c = '\x7b' then some (.point none, []) else stepDigits 3 0 c
  | .point value, c => stepPoint value c

/-- Reads the rest of a literal: the code units that it denotes, and the text after its closing quote. -/
def read : Mode → List Char → Option (List Nat × List Char)
  | _, [] => none
  | m, c :: cs =>
    if c = '\x27' ∧ m.closes = true then some ([], cs)
    else (step m c).bind fun next => (read next.1 cs).map fun p => (next.2 ++ p.1, p.2)

/-- The text, which stands after an opening quote, starts with the rest of a literal that denotes `s`. -/
def Denotes (cs : List Char) (s : String) : Prop := ∃ after, read .plain cs = some (units s.toList, after)

/-! ### Steps -/

section
variable {m m' : Mode} {c : Char} {cs : List Char} {denoted : List Nat} {p : List Nat × List Char}

theorem read_cons_of_step (hc : ¬(c = '\x27' ∧ m.closes = true)) (h : step m c = some (m', denoted)) (cs : List Char) :
    read m (c :: cs) = (read m' cs).map fun p => (denoted ++ p.1, p.2) := by
  rw [read, if_neg hc, h, Option.bind_some]

theorem step_of_read (h : read m (c :: cs) = some p) (hc : ¬(c = '\x27' ∧ m.closes = true)) :
    ∃ m' denoted rest, step m c = some (m', denoted) ∧ read m' cs = some (rest, p.2) ∧ p.1 = denoted ++ rest := by
  rw [read, if_neg hc] at h
  obtain ⟨⟨m', denoted⟩, hstep, h⟩ := Option.bind_eq_some_iff.mp h
  obtain ⟨⟨rest, after⟩, hrest, rfl⟩ := Option.map_eq_some_iff.mp h
  exact ⟨m', denoted, rest, hstep, hrest, rfl⟩

end

/-! ### Escapes are longer than what they denote -/

/-- How many code units of the text, at least, have not been denoted yet. -/
def Mode.lag : Mode → Nat
  | .plain => 0
  | .escape | .null => 1
  | .lineBreak | .digits _ _ | .unicode => 2
  | .point _ => 3

/-- The character stands for itself between quotes. -/
def IsPlain (c : Char) : Prop := c ≠ '\x27' ∧ c ≠ '\\' ∧ c ≠ '\n' ∧ c ≠ '\r'

instance (c : Char) : Decidable (IsPlain c) := inferInstanceAs (Decidable (_ ∧ _))

theorem length_pointUnits (n : Nat) : 1 ≤ (pointUnits n).length ∧ (pointUnits n).length ≤ 2 := by
  unfold pointUnits
  split <;> simp

theorem length_charUnits (c : Char) : 1 ≤ (charUnits c).length ∧ (charUnits c).length ≤ 2 := length_pointUnits c.toNat

theorem quote_not_mem_charUnits {c : Char} (hc : c ≠ '\x27') : 0x27 ∉ charUnits c := by
  intro h
  unfold charUnits pointUnits at h
  split at h
  · exact hc (Char.toNat_inj.mp (List.mem_singleton.mp h).symm)
  · simp only [List.mem_cons, List.not_mem_nil, or_false] at h
    omega

/-- What a step has denoted and still holds back. Inside an escape and after one that is at least one code unit. -/
def cost (next : Mode × List Nat) : Nat := next.2.length + max 1 next.1.lag

section
variable {m : Mode} {c : Char} {next : Mode × List Nat}

theorem stepPlain_cases (h : stepPlain c = some next) :
    (c = '\\' ∧ next = (.escape, [])) ∨ (c ≠ '\\' ∧ c ≠ '\n' ∧ c ≠ '\r' ∧ next = (.plain, charUnits c)) := by
  unfold stepPlain at h
  grind

theorem cost_stepDigits {left value : Nat} (h : stepDigits left value c = some next) : cost next = 2 := by
  obtain ⟨digit, -, h⟩ := Option.bind_eq_some_iff.mp h
  cases left <;> cases h <;> rfl

theorem cost_stepPoint {value : Option Nat} (h : stepPoint value c = some next) : cost next ≤ 3 := by
  unfold stepPoint at h
  split at h
  · obtain ⟨n, -, rfl⟩ := Option.map_eq_some_iff.mp h
    exact Nat.succ_le_succ (length_pointUnits n).2
  · obtain ⟨digit, -, h⟩ := Option.bind_eq_some_iff.mp h
    dsimp only at h
    split at h
    · cases h
      exact Nat.le_refl 3
    · cases h

theorem stepEscape_cases (h : stepEscape c = some next) : cost next ≤ 2 ∨ next = (.plain, charUnits c) := by
  unfold stepEscape at h
  iterate 5
    split at h
    · cases h
      exact Or.inl (by decide)
  split at h
  · cases h
  split at h
  · cases h
    exact Or.inl (Nat.le_refl 2)
  · exact Or.inr (Option.some.inj h).symm

/-- A step outside escapes denotes its character, and any other one leaves the text ahead. -/
theorem step_cases (hc : c ≠ '\x27') (h : step m c = some next) :
    (m = .plain ∧ IsPlain c ∧ next = (.plain, charUnits c)) ∨ cost next ≤ m.lag + (charUnits c).length := by
  have hlength := (length_charUnits c).1
  have hself : cost (.plain, charUnits c) = (charUnits c).length + 1 := rfl
  have hplain : 1 ≤ m.lag → stepPlain c = some next → cost next ≤ m.lag + (charUnits c).length := by
    intro hm h
    rcases stepPlain_cases h with ⟨-, rfl⟩ | ⟨-, -, -, rfl⟩
    · exact Nat.le_trans hlength (Nat.le_add_left _ _)
    · omega
  cases m with
  | plain =>
    rcases stepPlain_cases h with ⟨-, rfl⟩ | ⟨hbackslash, hfeed, hreturn, rfl⟩
    · exact Or.inr (Nat.le_trans hlength (Nat.le_add_left _ _))
    · exact Or.inl ⟨rfl, ⟨hc, hbackslash, hfeed, hreturn⟩, rfl⟩
  | escape =>
    have hlag : Mode.escape.lag = 1 := rfl
    rcases stepEscape_cases h with h | rfl <;> omega
  | lineBreak =>
    rw [step] at h
    split at h
    · cases h
      exact Or.inr (Nat.le_trans hlength (Nat.le_add_left _ _))
    · exact Or.inr (hplain (by decide) h)
  | null =>
    rw [step] at h
    split at h
    · cases h
    · exact Or.inr (hplain (Nat.le_refl 1) h)
  | digits left value =>
    have hlag : (Mode.digits left value).lag = 2 := rfl
    have := cost_stepDigits h
    omega
  | unicode =>
    have hlag : Mode.unicode.lag = 2 := rfl
    rw [step] at h
    split at h
    · cases h
      have hpoint : cost (.point none, []) = 3 := rfl
      omega
    · have := cost_stepDigits h
      omega
  | point value =>
    have hlag : (Mode.point value).lag = 3 := rfl
    have := cost_stepPoint h
    omega

/-- A quote inside an escape is no end of the literal: it denotes itself or is refused. -/
theorem step_quote (hm : m.closes = false) (h : step m '\x27' = some next) : m = .escape ∧ next = (.plain, [0x27]) := by
  cases m with
  | escape => exact ⟨rfl, (Option.some.inj h).symm⟩
  | digits left value => cases h
  | unicode => cases h
  | point value => cases h
  | plain | lineBreak | null => cases hm

/-- Of a carriage return with a line feed an escape makes nothing, and nothing else takes it. -/
theorem read_lineBreak {cs : List Char} {p : List Nat × List Char} (h : read m ('\r' :: '\n' :: cs) = some p) :
    m = .escape ∧ read .plain cs = some p := by
  obtain ⟨m', denoted, rest, hreturn, h, hp⟩ := step_of_read h (by simp)
  cases m with
  | escape =>
    cases hreturn
    obtain ⟨m'', denoted', rest', hfeed, h, hrest⟩ := step_of_read h (by simp)
    cases hfeed
    simp only [List.nil_append] at hp hrest
    rw [h, ← hrest, ← hp]
    exact ⟨rfl, rfl⟩
  | digits left value => cases hreturn
  | point value => cases hreturn
  | plain | lineBreak | null | unicode => cases hreturn

end

/-! ### Texts between quotes -/

/-- Between the quotes the text is ahead of the value by these code units, none of which is a quote. -/
structure Ahead (m : Mode) (ahead : List Nat) : Prop where
  quote : 0x27 ∉ ahead
  lag : m.lag ≤ ahead.length

namespace Ahead
variable {m m' : Mode} {c : Char} {cs after : List Char} {ahead denoted value later more : List Nat}

/-- One step takes what it denotes from the front, and the rest is still ahead. If that is nothing, nothing was
    ahead before either. -/
theorem step (ha : Ahead m ahead) (hc : c ≠ '\x27') (h : Script.step m c = some (m', denoted))
    (hvalue : denoted ++ later = ahead ++ charUnits c ++ more) :
    ∃ ahead', Ahead m' ahead' ∧ later = ahead' ++ more ∧ (ahead' = [] → ahead = [] ∧ IsPlain c) := by
  have hcost : cost (m', denoted) = denoted.length + max 1 m'.lag := rfl
  have hlag := ha.lag
  have hcases := step_cases hc h
  have hshort : denoted.length + m'.lag ≤ ahead.length + (charUnits c).length := by
    rcases hcases with ⟨-, -, hnext⟩ | hle
    · obtain ⟨rfl, rfl⟩ := Prod.mk.inj hnext
      exact Nat.le_add_left _ _
    · omega
  obtain ⟨ahead', hahead'⟩ : denoted <+: ahead ++ charUnits c :=
    List.prefix_of_prefix_length_le ⟨later, hvalue⟩ ⟨more, rfl⟩ (by rw [List.length_append]; omega)
  rw [← hahead', List.append_assoc] at hvalue
  have hlength := congrArg List.length hahead'
  simp only [List.length_append] at hlength
  refine ⟨ahead', ⟨fun hmem => ?_, by omega⟩, List.append_cancel_left hvalue, ?_⟩
  · rcases List.mem_append.mp (hahead' ▸ List.mem_append_right denoted hmem) with hmem | hmem
    · exact ha.quote hmem
    · exact quote_not_mem_charUnits hc hmem
  · rintro rfl
    rw [List.length_nil] at hlength
    rcases hcases with ⟨-, hplain, hnext⟩ | hle
    · obtain ⟨-, rfl⟩ := Prod.mk.inj hnext
      exact ⟨List.eq_nil_of_length_eq_zero (by omega), hplain⟩
    · omega

/-- The same for the one or two characters that a line ending writes for one. An escaped line break denotes nothing. -/
theorem written {e : LineEnding} (ha : Ahead m ahead) (hc : c ≠ '\x27')
    (h : read m (e.written c ++ cs) = some (value, after)) (hvalue : value = ahead ++ charUnits c ++ more) :
    ∃ m' ahead', Ahead m' ahead' ∧ read m' cs = some (ahead' ++ more, after) ∧ (ahead' = [] → ahead = [] ∧ IsPlain c) := by
  by_cases hbreak : c = '\n' ∧ e = .crlf
  · obtain ⟨rfl, rfl⟩ := hbreak
    obtain ⟨rfl, hread⟩ := read_lineBreak h
    refine ⟨.plain, ahead ++ charUnits '\n', ⟨?_, Nat.zero_le _⟩, hvalue ▸ hread, fun hnone => ?_⟩
    · simp only [List.mem_append, not_or]
      exact ⟨ha.quote, quote_not_mem_charUnits hc⟩
    · cases (List.append_eq_nil_iff.mp hnone).2
  · have hwritten : e.written c = [c] := by
      unfold LineEnding.written
      split
      · cases e with
        | lf => simp [LineEnding.text, *]
        | crlf => exact absurd ⟨‹_›, rfl⟩ hbreak
      · rfl
    rw [hwritten, List.singleton_append] at h
    obtain ⟨m', denoted, later, hstep, h, hlater⟩ := step_of_read h fun hq => hc hq.1
    obtain ⟨ahead', ha', rfl, hplain⟩ := ha.step hc hstep (hlater.symm.trans hvalue)
    exact ⟨m', ahead', ha', h, hplain⟩

/-- At the quote nothing may be ahead: an escaped quote would be the first unit of what is. -/
theorem close (ha : Ahead m ahead) (h : read m ('\x27' :: cs) = some (value, after)) (hvalue : value = ahead ++ more) :
    ahead = [] ∧ more = [] := by
  by_cases hm : m.closes = true
  · rw [read, if_pos ⟨rfl, hm⟩] at h
    cases h
    exact List.append_eq_nil_iff.mp hvalue.symm
  · obtain ⟨m', denoted, later, hstep, -, hlater⟩ := step_of_read h fun hc => hm hc.2
    obtain ⟨rfl, hnext⟩ := step_quote (Bool.eq_false_iff.mpr hm) hstep
    obtain ⟨-, rfl⟩ := Prod.mk.inj hnext
    cases ahead with
    | nil => exact absurd ha.lag (by decide)
    | cons unit ahead =>
      have hunit := (List.cons.inj (hlater.symm.trans hvalue)).1
      exact absurd (hunit ▸ List.mem_cons_self) ha.quote

/-- A value that goes on with the text up to a quote is not behind, and it ends there. -/
theorem run {e : LineEnding} {rest : List Char} (hcs : '\x27' ∉ cs) (ha : Ahead m ahead)
    (h : read m (cs.flatMap e.written ++ '\x27' :: rest) = some (ahead ++ units cs ++ more, after)) :
    ahead = [] ∧ more = [] ∧ ∀ c ∈ cs, IsPlain c := by
  induction cs generalizing m ahead with
  | nil =>
    have hvalue : ahead ++ units [] ++ more = ahead ++ more := by simp [units]
    obtain ⟨hahead, hmore⟩ := ha.close h hvalue
    exact ⟨hahead, hmore, by simp⟩
  | cons c cs ih =>
    obtain ⟨hc, hcs⟩ : c ≠ '\x27' ∧ '\x27' ∉ cs := by simpa [eq_comm] using hcs
    have hvalue : ahead ++ units (c :: cs) ++ more = ahead ++ charUnits c ++ (units cs ++ more) := by
      simp only [units, List.flatMap_cons, List.append_assoc]
    rw [List.flatMap_cons, List.append_assoc] at h
    obtain ⟨m', ahead', ha', h, hplain⟩ := ha.written hc h hvalue
    rw [← List.append_assoc] at h
    obtain ⟨hahead', hmore, hall⟩ := ih hcs ha' h
    obtain ⟨hahead, hfirst⟩ := hplain hahead'
    exact ⟨hahead, hmore, List.forall_mem_cons.mpr ⟨hfirst, hall⟩⟩

end Ahead

/-- The text denotes itself when it is put between quotes as it is. -/
def Verbatim (s : String) : Prop := ∀ c ∈ s.toList, IsPlain c

instance (s : String) : Decidable (Verbatim s) := List.decidableBAll IsPlain s.toList

/-- Text without quotes, backslashes and line breaks is read as it stands. -/
theorem read_plain : ∀ {cs : List Char}, (∀ c ∈ cs, IsPlain c) → ∀ rest, read .plain (cs ++ '\x27' :: rest) =
    some (units cs, rest)
  | [], _, _ => rfl
  | c :: cs, h, rest => by
    obtain ⟨⟨hquote, hbackslash, hfeed, hreturn⟩, hcs⟩ := List.forall_mem_cons.mp h
    have hstep : step .plain c = some (.plain, charUnits c) := by simp [step, stepPlain, hbackslash, hfeed, hreturn]
    rw [List.cons_append, read_cons_of_step (fun hc => hquote hc.1) hstep, read_plain hcs]
    rfl

/-- Put between quotes as it is and written with any line ending, a text denotes itself exactly when it is plain,
    whatever stands behind the quote. -/
theorem denotes_apply_iff (e : LineEnding) (s : String) (rest : List Char) :
    Denotes ((e.apply s).toList ++ '\x27' :: rest) s ↔ Verbatim s := by
  rw [LineEnding.toList_apply]
  constructor
  · rintro ⟨after, h⟩
    have hstart : Ahead .plain [] := ⟨List.not_mem_nil, Nat.le_refl 0⟩
    by_cases hquote : '\x27' ∈ s.toList
    · -- Up to the first quote the value is the text, and it would have to go on.
      obtain ⟨cs, later, hs, hcs⟩ := List.eq_append_cons_of_mem hquote
      have hwritten : e.written '\x27' = ['\x27'] := rfl
      rw [hs, List.flatMap_append, List.flatMap_cons, hwritten, List.append_assoc, List.append_assoc,
        List.singleton_append, units, List.flatMap_append] at h
      obtain ⟨-, hmore, -⟩ := Ahead.run hcs hstart h
      cases (List.append_eq_nil_iff.mp (List.flatMap_cons.symm.trans hmore)).1
    · exact (Ahead.run hquote hstart (by rw [List.nil_append, List.append_nil]; exact h)).2.2
  · intro h
    have hwritten : s.toList.flatMap e.written = s.toList := by
      have hself : s.toList.flatMap e.written = s.toList.flatMap ([·]) :=
        List.flatMap_congr fun c hc => if_neg (h c hc).2.2.1
      rw [hself, List.flatMap_singleton']
    rw [hwritten]
    exact ⟨rest, read_plain h rest⟩

end Script
end SchemaForge
