import SchemaForge.Proofs.Toml.Record
import SchemaForge.Settings

/-! The settings that a configuration file writes. Its tables are records over the defaults, so a file in which the
    known keys have values of their kinds is accepted when its choices are known names, and gives for each setting
    what stands under the setting's key or else the default. -/

namespace SchemaForge
open Toml

/-! ### The records of a file -/

/-- The settings with the given entries' values where there are any, and their own elsewhere. -/
def OutputSettings.fill (o : OutputSettings) (part : String → Option Entry) : OutputSettings where
  directory := ((part "dir").map Entry.text).getD o.directory
  inputSuffix := ((part "input_suffix").map Entry.text).getD o.inputSuffix

def Options.fill (o : Options) (part : String → Option Entry) : Options where
  library := ((part "library").map Entry.text).getD o.library
  enumImportPrefix := ((part "enum_import_prefix").map Entry.text).getD o.enumImportPrefix
  indent := ((part "indent").map fun e => (Indent.table.lookup e.text).getD .tabs).getD o.indent
  lineEnding := ((part "line_ending").map fun e => (LineEnding.table.lookup e.text).getD .lf).getD o.lineEnding
  typeOverrides := ((part "type_overrides").map Entry.texts).getD o.typeOverrides

namespace Settings

def fill (s : Settings) (part : String → Option Entry) : Settings where
  output := ((part "output").map fun e => OutputSettings.fill {} fun n => e.inner.lookup n).getD s.output
  generator := ((part "generator").map fun e => Options.fill {} fun n => e.inner.lookup n).getD s.generator

/-- The kinds that the values of the known keys have. -/
def outputKinds : List (String × (Value → Bool)) := [("dir", Value.isString), ("input_suffix", Value.isString)]

def generatorKinds : List (String × (Value → Bool)) :=
  [("library", Value.isString), ("enum_import_prefix", Value.isString), ("indent", Value.isString),
    ("line_ending", Value.isString), ("type_overrides", Value.isTableOf Value.isString)]

def kinds : List (String × (Value → Bool)) :=
  [("output", Value.isTableWith outputKinds), ("generator", Value.isTableWith generatorKinds)]

/-- A choice in the table of the generator is a known name. -/
def ChoosesKnown (g : String × Entry) : Prop :=
  (g.1 = "indent" → (Indent.table.lookup g.2.text).isSome = true) ∧
    (g.1 = "line_ending" → (LineEnding.table.lookup g.2.text).isSome = true)

section
variable {key : String} {e : Entry}

theorem take_putOutput (hkinds : ∀ f ∈ outputKinds, f.1 = key → f.2 e.node.value = true)
    (hrange : e.node.value.inRange = true) (o o' : OutputSettings) :
    Node.record.take putOutput o key e.node = .ok o' ↔ True ∧ o' = o.fill (Assoc.only key e) := by
  simp only [outputKinds, List.forall_mem_cons] at hkinds
  obtain ⟨hdir, hsuffix, -⟩ := hkinds
  unfold Node.record.take
  fun_cases putOutput o key e.node with
  | case1 => simp [Entry.string_eq (hdir rfl), OutputSettings.fill, Assoc.only, @eq_comm _ o']
  | case2 => simp [Entry.string_eq (hsuffix rfl), OutputSettings.fill, Assoc.only, @eq_comm _ o']
  | case3 _ h₁ h₂ =>
    simp [Value.pass_of_inRange _ hrange, OutputSettings.fill, Assoc.only, eq_false h₁, eq_false h₂, @eq_comm _ o']

/-- The overrides of a table are its texts, in the order of their tags already. -/
theorem overrides_texts (h : e.node.value.Ordered) : overrides e.texts = e.texts := by
  have hsorted : Assoc.Sorted e.texts := List.pairwise_map.mpr h.inner.sorted
  rw [overrides, ← List.nil_append e.texts]
  exact Assoc.foldl_insert hsorted

theorem take_putGenerator (hkinds : ∀ f ∈ generatorKinds, f.1 = key → f.2 e.node.value = true)
    (hordered : e.node.value.Ordered) (hrange : e.node.value.inRange = true) (o o' : Options) :
    Node.record.take putGenerator o key e.node = .ok o' ↔ ChoosesKnown (key, e) ∧ o' = o.fill (Assoc.only key e) := by
  simp only [generatorKinds, List.forall_mem_cons] at hkinds
  obtain ⟨hlibrary, hfront, hindent, hending, hoverrides, -⟩ := hkinds
  unfold Node.record.take ChoosesKnown
  fun_cases putGenerator o key e.node with
  | case1 => simp [Entry.string_eq (hlibrary rfl), Options.fill, Assoc.only, @eq_comm _ o']
  | case2 => simp [Entry.string_eq (hfront rfl), Options.fill, Assoc.only, @eq_comm _ o']
  | case3 =>
    simp only [bind_eq_ok, Entry.choice_eq_ok_iff (hindent rfl)]
    cases hlookup : Indent.table.lookup e.text <;>
      simp [hlookup, Options.fill, Assoc.only, pure, Except.pure, @eq_comm _ o']
  | case4 =>
    simp only [bind_eq_ok, Entry.choice_eq_ok_iff (hending rfl)]
    cases hlookup : LineEnding.table.lookup e.text <;>
      simp [hlookup, Options.fill, Assoc.only, pure, Except.pure, @eq_comm _ o']
  | case5 =>
    simp [Entry.strings_eq (hoverrides rfl), overrides_texts hordered, Options.fill, Assoc.only, @eq_comm _ o']
  | case6 _ h₁ h₂ h₃ h₄ h₅ =>
    simp [Value.pass_of_inRange _ hrange, Options.fill, Assoc.only, eq_false h₁, eq_false h₂, eq_false h₃, eq_false h₄,
      eq_false h₅, @eq_comm _ o']

/-! ### Tables and files -/

theorem outputOfNode_eq (hkinds : e.node.value.isTableWith outputKinds = true) (hordered : e.node.value.Ordered)
    (hrange : e.node.value.inRange = true) :
    outputOfNode e.node = .ok (OutputSettings.fill {} fun n => e.inner.lookup n) := by
  refine (Node.record_eq_ok_iff hkinds hordered hrange (fun _ => rfl) (fun o key e part h => ?_)
    fun hkinds _ hrange => take_putOutput hkinds hrange).mpr ⟨fun _ _ => trivial, rfl⟩
  simp only [OutputSettings.fill, Assoc.slot_fill h]

theorem generatorOfNode_eq_ok_iff (hkinds : e.node.value.isTableWith generatorKinds = true)
    (hordered : e.node.value.Ordered) (hrange : e.node.value.inRange = true) {o : Options} :
    generatorOfNode e.node = .ok o ↔
      (∀ g ∈ e.inner, ChoosesKnown g) ∧ o = Options.fill {} fun n => e.inner.lookup n := by
  refine Node.record_eq_ok_iff hkinds hordered hrange (fun _ => rfl) (fun o key e part h => ?_) take_putGenerator
  simp only [Options.fill, Assoc.slot_fill h]

theorem take_put (hkinds : ∀ f ∈ kinds, f.1 = key → f.2 e.node.value = true) (hordered : e.node.value.Ordered)
    (hrange : e.node.value.inRange = true) (s s' : Settings) : Node.record.take put s key e.node = .ok s' ↔
      (key = "generator" → ∀ g ∈ e.inner, ChoosesKnown g) ∧ s' = s.fill (Assoc.only key e) := by
  simp only [kinds, List.forall_mem_cons] at hkinds
  obtain ⟨houtput, hgenerator, -⟩ := hkinds
  unfold Node.record.take
  fun_cases put s key e.node with
  | case1 => simp [outputOfNode_eq (houtput rfl) hordered hrange, fill, Assoc.only, @eq_comm _ s']
  | case2 =>
    simp only [bind_eq_ok, generatorOfNode_eq_ok_iff (hgenerator rfl) hordered hrange]
    simp [fill, Assoc.only, pure, Except.pure, @eq_comm _ s']
  | case3 _ h₁ h₂ =>
    simp [Value.pass_of_inRange _ hrange, fill, Assoc.only, eq_false h₁, eq_false h₂, @eq_comm _ s']

end

section
variable {entries : Entries} {s : Settings}

/-- A file in which the known keys have values of their kinds is accepted when its choices are known names. -/
theorem ofEntries_eq_ok_iff (hkinds : (Value.table .header entries).isTableWith kinds = true)
    (hordered : entries.Ordered) (hrange : Entry.allInRange entries = true) : ofEntries entries = .ok s ↔
      (∀ e ∈ entries, e.1 = "generator" → ∀ g ∈ e.2.inner, ChoosesKnown g) ∧
        s = Settings.fill {} fun n => entries.lookup n := by
  -- The file is a record like the others, read from the table of all its entries.
  let file : Entry := ⟨⟨0, 0⟩, ⟨.table .header entries, ⟨0, 0⟩⟩⟩
  refine Node.record_eq_ok_iff (e := file) hkinds (hordered.table _) hrange (fun _ => rfl)
    (fun s key e part h => ?_) take_put
  simp only [fill, Assoc.slot_fill h]

end

end Settings

/-! ### What a file says -/

/-- What a configuration file says for each setting, if it has the setting's key. -/
structure Settings.Written where
  directory : Option String
  inputSuffix : Option String
  library : Option String
  enumImportPrefix : Option String
  indent : Option String
  lineEnding : Option String
  typeOverrides : Option (List (String × String))

namespace Indent

theorem lookup_name (i : Indent) : table.lookup i.name = some i := by cases i <;> rfl

theorem name_injective {i j : Indent} (h : i.name = j.name) : i = j :=
  Option.some.inj ((lookup_name i).symm.trans (h ▸ lookup_name j))

theorem isSome_lookup_iff {name : String} :
    (table.lookup name).isSome = true ↔ name ∈ ["tabs", "spaces2", "spaces4"] :=
  Assoc.isSome_lookup_names Indent.name [tabs, spaces2, spaces4]

end Indent

namespace LineEnding

theorem lookup_name (e : LineEnding) : table.lookup e.name = some e := by cases e <;> rfl

theorem name_injective {e e' : LineEnding} (h : e.name = e'.name) : e = e' :=
  Option.some.inj ((lookup_name e).symm.trans (h ▸ lookup_name e'))

theorem isSome_lookup_iff {name : String} : (table.lookup name).isSome = true ↔ name ∈ ["lf", "crlf"] :=
  Assoc.isSome_lookup_names LineEnding.name [lf, crlf]

end LineEnding

/-- A choice is the one that is named, or the default if none is. -/
theorem Toml.Entry.name_chosen {α : Type} {name : α → String} {choices : List α} {default : α} {e : Option Entry}
    (h : ∀ n, e.map Entry.text = some n → ((choices.map fun a => (name a, a)).lookup n).isSome = true) :
    name ((e.map fun e => ((choices.map fun a => (name a, a)).lookup e.text).getD default).getD default) =
      (e.map Entry.text).getD (name default) := by
  cases e with
  | none => rfl
  | some e =>
    obtain ⟨a, ha⟩ := Option.isSome_iff_exists.mp (h e.text rfl)
    simp only [Option.map_some, Option.getD_some, ha]
    exact Assoc.name_of_lookup ha

namespace Toml.Entries

/-- The entries of the table under a key; none if there is no such key. -/
def under (entries : Entries) (key : String) : Entries := ((entries.lookup key).map Entry.inner).getD []

/-- The text under a key. -/
def text? (entries : Entries) (key : String) : Option String := (entries.lookup key).map Entry.text

theorem Ordered.under {entries : Entries} (h : entries.Ordered) (key : String) : (entries.under key).Ordered := by
  unfold Entries.under
  cases hkey : entries.lookup key with
  | none => exact .nil
  | some e => exact (h.lookup hkey).inner

/-- What holds for the entries of one key holds for the entry that the key has. -/
theorem Ordered.forall_key_iff {entries : Entries} (h : entries.Ordered) (key : String) (P : Entry → Prop) :
    (∀ e ∈ entries, e.1 = key → P e.2) ↔ ∀ e, entries.lookup key = some e → P e := by
  constructor
  · intro hall e he
    exact hall (key, e) ((Assoc.lookup_eq_some_iff h.sorted.nodup).mp he) rfl
  · rintro hall ⟨key, e⟩ he rfl
    exact hall e ((Assoc.lookup_eq_some_iff h.sorted.nodup).mpr he)

theorem Ordered.forall_under_iff {entries : Entries} (h : entries.Ordered) {key : String} {P : String × Entry → Prop} :
    (∀ e ∈ entries, e.1 = key → ∀ g ∈ e.2.inner, P g) ↔ ∀ g ∈ entries.under key, P g := by
  refine (h.forall_key_iff key fun e => ∀ g ∈ e.inner, P g).trans ?_
  unfold Entries.under
  cases entries.lookup key <;> simp

/-- What is read of a table under a key is read of no entries if there is no such key. -/
theorem getD_map_inner {α : Type} (entries : Entries) (key : String) (read : Entries → α) :
    ((entries.lookup key).map fun e => read e.inner).getD (read []) = read (entries.under key) := by
  unfold Entries.under
  cases entries.lookup key <;> rfl

end Toml.Entries

namespace Settings

/-- What the entries of a configuration file say. Only the known keys are asked for. -/
def written (entries : Entries) : Written where
  directory := (entries.under "output").text? "dir"
  inputSuffix := (entries.under "output").text? "input_suffix"
  library := (entries.under "generator").text? "library"
  enumImportPrefix := (entries.under "generator").text? "enum_import_prefix"
  indent := (entries.under "generator").text? "indent"
  lineEnding := (entries.under "generator").text? "line_ending"
  typeOverrides := ((entries.under "generator").lookup "type_overrides").map Entry.texts

/-- The indentation and the line ending, where there is one, are spelled as one of their names. -/
structure Written.NamesKnown (file : Written) : Prop where
  indent : ∀ name, file.indent = some name → name ∈ ["tabs", "spaces2", "spaces4"]
  lineEnding : ∀ name, file.lineEnding = some name → name ∈ ["lf", "crlf"]

/-- Under these flags the suffix of input files is not empty, and the library is not all white space. -/
structure Written.Valid (file : Written) (flags : Overrides) : Prop where
  inputSuffix : flags.inputSuffix.getD (file.inputSuffix.getD "Input") ≠ ""
  library : ∃ c ∈ (flags.library.getD (file.library.getD "@sinclair/typebox")).toList, Text.isBlank c = false

/-- Every setting is the flag's value if there is one, otherwise the file's, and otherwise the default. -/
structure TakenFrom (flags : Overrides) (file : Written) (s : Settings) : Prop where
  directory : s.output.directory = flags.output.getD (file.directory.getD "./generated")
  inputSuffix : s.output.inputSuffix = flags.inputSuffix.getD (file.inputSuffix.getD "Input")
  library : s.generator.library = flags.library.getD (file.library.getD "@sinclair/typebox")
  enumImportPrefix : s.generator.enumImportPrefix = file.enumImportPrefix.getD "./"
  indent : s.generator.indent.name = file.indent.getD "tabs"
  lineEnding : s.generator.lineEnding.name = file.lineEnding.getD "lf"
  typeOverrides : s.generator.typeOverrides = file.typeOverrides.getD []

section
variable {entries : Entries} {s : Settings} {file : Written} {flags : Overrides}

theorem choosesKnown_iff (h : entries.Ordered) :
    (∀ e ∈ entries, e.1 = "generator" → ∀ g ∈ e.2.inner, ChoosesKnown g) ↔ (written entries).NamesKnown := by
  have hgenerator := h.under "generator"
  have hindent := hgenerator.forall_key_iff "indent" fun e => (Indent.table.lookup e.text).isSome = true
  have hending := hgenerator.forall_key_iff "line_ending" fun e => (LineEnding.table.lookup e.text).isSome = true
  rw [h.forall_under_iff]
  constructor
  · intro hall
    refine ⟨fun name hname => ?_, fun name hname => ?_⟩
    · obtain ⟨e, he, rfl⟩ := Option.map_eq_some_iff.mp hname
      exact Indent.isSome_lookup_iff.mp (hindent.mp (fun g hg => (hall g hg).1) e he)
    · obtain ⟨e, he, rfl⟩ := Option.map_eq_some_iff.mp hname
      exact LineEnding.isSome_lookup_iff.mp (hending.mp (fun g hg => (hall g hg).2) e he)
  · intro hknown g hg
    refine ⟨hindent.mpr (fun e he => ?_) g hg, hending.mpr (fun e he => ?_) g hg⟩
    · exact Indent.isSome_lookup_iff.mpr (hknown.indent _ (Option.map_eq_some_iff.mpr ⟨e, he, rfl⟩))
    · exact LineEnding.isSome_lookup_iff.mpr (hknown.lineEnding _ (Option.map_eq_some_iff.mpr ⟨e, he, rfl⟩))

/-- Over the defaults, the entries give what the file says. -/
theorem takenFrom_fill (h : (written entries).NamesKnown) :
    TakenFrom {} (written entries) (Settings.fill {} fun n => entries.lookup n) := by
  -- A table that is missing gives what one without entries gives.
  have hfill : (Settings.fill {} fun n => entries.lookup n) =
      ⟨OutputSettings.fill {} fun n => (entries.under "output").lookup n,
        Options.fill {} fun n => (entries.under "generator").lookup n⟩ :=
    congrArg₂ Settings.mk (entries.getD_map_inner "output" fun table => OutputSettings.fill {} fun n => table.lookup n)
      (entries.getD_map_inner "generator" fun table => Options.fill {} fun n => table.lookup n)
  rw [hfill]
  exact ⟨rfl, rfl, rfl, rfl, Entry.name_chosen fun n hn => Indent.isSome_lookup_iff.mpr (h.indent n hn),
    Entry.name_chosen fun n hn => LineEnding.isSome_lookup_iff.mpr (h.lineEnding n hn), rfl⟩

/-- Flags take the place of what the file says. -/
theorem TakenFrom.merge (h : TakenFrom {} file s) : TakenFrom flags file (s.merge flags) where
  directory := congrArg flags.output.getD h.directory
  inputSuffix := congrArg flags.inputSuffix.getD h.inputSuffix
  library := congrArg flags.library.getD h.library
  enumImportPrefix := h.enumImportPrefix
  indent := h.indent
  lineEnding := h.lineEnding
  typeOverrides := h.typeOverrides

/-- Nothing else goes into the settings. -/
theorem TakenFrom.unique {s' : Settings} (h : TakenFrom flags file s) (h' : TakenFrom flags file s') : s = s' := by
  obtain ⟨⟨_, _⟩, ⟨_, _, indent, ending, _⟩⟩ := s
  obtain ⟨⟨_, _⟩, ⟨_, _, indent', ending', _⟩⟩ := s'
  obtain ⟨rfl, rfl, rfl, rfl, hindent, hending, rfl⟩ := h
  obtain ⟨rfl, rfl, rfl, rfl, hindent', hending', rfl⟩ := h'
  have hindents : indent = indent' := Indent.name_injective (hindent.trans hindent'.symm)
  have hendings : ending = ending' := LineEnding.name_injective (hending.trans hending'.symm)
  rw [hindents, hendings]

/-- Settings are accepted when what they are taken from is valid. -/
theorem TakenFrom.validate_eq_ok_iff (h : TakenFrom flags file s) : s.validate = .ok () ↔ file.Valid flags := by
  unfold validate
  rw [h.inputSuffix, h.library]
  split
  · rename_i hempty
    exact ⟨fun hok => (nomatch hok), fun hvalid => absurd (String.isEmpty_iff.mp hempty) hvalid.inputSuffix⟩
  · rename_i hfull
    split
    · rename_i hblank
      refine ⟨fun hok => (nomatch hok), fun hvalid => ?_⟩
      obtain ⟨c, hc, hnot⟩ := hvalid.library
      rw [List.all_eq_true.mp hblank c hc] at hnot
      cases hnot
    · rename_i hwritten
      refine ⟨fun _ => ⟨fun hempty => hfull (String.isEmpty_iff.mpr hempty), ?_⟩, fun _ => rfl⟩
      simpa [Text.allBlank] using hwritten

end

end Settings

end SchemaForge
