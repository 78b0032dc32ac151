import SchemaForge.Plan
import SchemaForge.Proofs.Generation.Pass
import SchemaForge.Proofs.Text.Lines

/-! Every generated file starts with an import. So no generated text can be read as a document, and none as a
    configuration file. -/

namespace SchemaForge

/-- The text starts with the word and the brace of an import. -/
def Text.StartsWithImport (text : String) : Prop := ∃ rest, text.toList = "import \x7b".toList ++ rest

namespace Text.StartsWithImport
variable {text : String}

theorem append (h : StartsWithImport text) (more : String) : StartsWithImport (text ++ more) := by
  obtain ⟨rest, hrest⟩ := h
  exact ⟨rest ++ more.toList, by rw [String.toList_append, hrest, List.append_assoc]⟩

/-- The preamble has no line feed, so it stays as it is in every line ending. -/
theorem apply (h : StartsWithImport text) (e : LineEnding) : StartsWithImport (e.apply text) := by
  obtain ⟨rest, hrest⟩ := h
  refine ⟨rest.flatMap e.written, ?_⟩
  rw [LineEnding.toList_apply, hrest, List.flatMap_append]
  cases e <;> rfl

end Text.StartsWithImport

namespace Options

/-- Adding the imports of enums keeps the lines before, and then every enum has its line. -/
theorem exists_foldl_importLines (o : Options) : ∀ enums lines : List String, ∃ more, enums.foldl
    (fun lines name => if o.enumImport name ∈ lines then lines else lines ++ [o.enumImport name]) lines = lines ++ more ∧
      ∀ n ∈ enums, o.enumImport n ∈ lines ++ more
  | [], lines => ⟨[], (List.append_nil lines).symm, by simp⟩
  | name :: enums, lines => by
    rw [List.foldl_cons]
    by_cases h : o.enumImport name ∈ lines
    · obtain ⟨more, hmore, hall⟩ := o.exists_foldl_importLines enums lines
      rw [if_pos h]
      exact ⟨more, hmore, List.forall_mem_cons.mpr ⟨List.mem_append_left more h, hall⟩⟩
    · obtain ⟨more, hmore, hall⟩ := o.exists_foldl_importLines enums (lines ++ [o.enumImport name])
      rw [if_neg h, hmore, List.append_assoc]
      rw [List.append_assoc] at hall
      exact ⟨_, rfl, List.forall_mem_cons.mpr ⟨by simp, hall⟩⟩

theorem exists_importLines (o : Options) (enums : List String) :
    ∃ rest, o.importLines enums = o.libraryImport :: rest := by
  obtain ⟨rest, hlines, -⟩ := o.exists_foldl_importLines enums [o.libraryImport]
  exact ⟨rest, hlines⟩

theorem mem_importLines (o : Options) {enums : List String} {n : String} (hn : n ∈ enums) :
    o.enumImport n ∈ o.importLines enums := by
  obtain ⟨rest, hlines, hall⟩ := o.exists_foldl_importLines enums [o.libraryImport]
  rw [importLines, hlines]
  exact hall n hn

end Options

theorem Emitter.file_startsWithImport (e : Emitter) (o : Options) (enums : List String) (body : String) :
    Text.StartsWithImport (e.file (o.importLines enums) body) := by
  obtain ⟨rest, hlines⟩ := o.exists_importLines enums
  have hopening : Text.StartsWithImport "import \x7b Type, Static \x7d from '" :=
    ⟨" Type, Static \x7d from '".toList, by decide⟩
  have hlibrary : Text.StartsWithImport o.libraryImport := (hopening.append o.library).append "'"
  have hhead : Text.StartsWithImport (String.intercalate "\n" (o.importLines enums)) := by
    rw [hlines]
    cases rest with
    | nil => simpa using hlibrary
    | cons line rest =>
      rw [String.intercalate_cons_cons, String.append_assoc]
      exact hlibrary.append _
  have hne : (o.importLines enums).isEmpty = false := by rw [hlines]; rfl
  unfold file
  simp only [hne, Bool.false_eq_true, if_false]
  exact ((hhead.append _ |>.append body).append "\n").apply e.lineEnding

/-- Every file of a plan starts with an import. -/
theorem Settings.startsWithImport_plan {s : Settings} {d : Document} {f : OutputFile} (hf : f ∈ (s.plan d).files) :
    Text.StartsWithImport f.content := by
  have hplan : (s.plan d).files = (d.generate s.generator).flatMap s.filesOf := rfl
  rw [hplan, Document.generate_eq, List.flatMap_append, List.flatMap_map, List.flatMap_map] at hf
  rcases List.mem_append.mp hf with hf | hf
  · obtain ⟨p, -, hf⟩ := List.mem_flatMap.mp hf
    rcases List.mem_pair.mp (hf : f ∈ [_, _]) with rfl | rfl <;> exact Emitter.file_startsWithImport _ _ _ _
  · obtain ⟨e, -, hf⟩ := List.mem_flatMap.mp hf
    rw [List.mem_singleton.mp (hf : f ∈ [_])]
    exact Emitter.file_startsWithImport _ _ _ _

/-! ### Readers refuse imports -/

theorem Json.parse_ne_ok {text : String} (h : Text.StartsWithImport text) (v : Json) : parse text ≠ .ok v := by
  obtain ⟨rest, hrest⟩ := h
  have hcons : text.toList = 'i' :: ("mport \x7b".toList ++ rest) := hrest
  have hrun : Reading.start.run 0 text.toList = .error ⟨.noValue, 1⟩ := by
    rw [hcons, Reading.run]
    rfl
  unfold parse
  rw [hrun]
  rintro ⟨⟩

theorem Document.parse_ne_ok {text : String} (h : Text.StartsWithImport text) (d : Document) : parse text ≠ .ok d := by
  unfold parse
  cases hparse : Json.parse text with
  | ok v => exact absurd hparse (Json.parse_ne_ok h v)
  | error e => rintro ⟨⟩

theorem Toml.Reading.run_cons {r : Reading} {offset : Nat} {c : Char} {cs : List Char} {token : Token} {count : Nat}
    (h : scanToken c cs = some (token, count)) : ∃ stop, r.run offset (c :: cs) =
      (r.step token ⟨offset, stop⟩).bind fun r => r.run stop (cs.drop count) := by
  refine ⟨offset + c.utf8Size + Json.byteLength (cs.take count), ?_⟩
  rw [run, h]
  simp only
  cases r.step token ⟨offset, offset + c.utf8Size + Json.byteLength (cs.take count)⟩ <;> rfl

theorem Toml.parse?_eq_none {text : String} (h : Text.StartsWithImport text) : parse? text = none := by
  obtain ⟨rest, hrest⟩ := h
  have hparse : parse? text = Reading.start.run 0 ('i' :: ("mport \x7b".toList ++ rest)) := by
    rw [parse?, hrest]
    rfl
  have hword : scanToken 'i' ("mport \x7b".toList ++ rest) = some (.atom "import".toList, 5) := rfl
  have hspace : scanToken ' ' ('\x7b' :: rest) = some (.space [' '], 0) := rfl
  have hbrace : scanToken '\x7b' rest = some (.openBrace, 0) := rfl
  -- The word is a key, and a brace cannot come after it.
  obtain ⟨wordEnd, hfirst⟩ := Reading.run_cons hword
  obtain ⟨spaceEnd, hsecond⟩ := Reading.run_cons hspace
  obtain ⟨braceEnd, hthird⟩ := Reading.run_cons hbrace
  rw [hparse, hfirst]
  exact hsecond.trans hthird

end SchemaForge
