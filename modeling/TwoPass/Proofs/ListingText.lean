import TwoPass.Proofs.ObjectText
import TwoPass.Proofs.References
import TwoPass.Proofs.SourceText

/-!
# Listings read back

A listing shows a program line by line, in columns between tabs. Neither tabs nor line
feeds are escaped, so the columns can be told apart only because none of them holds
either (`SecondPass.lacks_of_mem_columns`). The words of the source were cut at tabs and
come from lines, and everything else is made of digits.

The three columns in the middle are the words the statement was read from. Joined by
spaces they make a source line again, `Listing.sourceOfRow`, and since the first pass
sees nothing of a line but its fields, the lines made of a listing are assembled to what
the listing shows.
-/

namespace TwoPass

/-! ## Lines without line feeds -/

namespace Text

theorem mem_of_mem_dropReturn {c : Char} {chars : List Char} (h : c ∈ dropReturn chars) :
    c ∈ chars := by
  fun_induction dropReturn chars with
  | case1 => exact h
  | case2 => cases h
  | case3 d rest _ ih =>
    rcases List.mem_cons.mp h with rfl | hrest
    · exact List.mem_cons_self
    · exact List.mem_cons_of_mem d (ih hrest)

/-- A line is part of a piece. -/
theorem exists_piece_of_mem {pieces : List (List Char)} {line : List Char}
    (h : line ∈ linesOfPieces pieces) : ∃ piece ∈ pieces, ∀ c ∈ line, c ∈ piece := by
  fun_induction linesOfPieces pieces with
  | case1 => cases h
  | case2 => cases h
  | case3 last _ => exact ⟨line, h, fun c hc => hc⟩
  | case4 first more _ ih =>
    rcases List.mem_cons.mp h with rfl | hmore
    · exact ⟨first, List.mem_cons_self, fun c hc => mem_of_mem_dropReturn hc⟩
    · obtain ⟨piece, hpiece, hsub⟩ := ih hmore
      exact ⟨piece, List.mem_cons_of_mem first hpiece, hsub⟩

/-- The lines of a text hold no line feeds. -/
theorem lacks_of_mem_lines {source line : String} (h : line ∈ lines source) :
    Lacks '\n' line := by
  obtain ⟨chars, hchars, rfl⟩ := List.mem_map.mp h
  obtain ⟨piece, hpiece, hsub⟩ := exists_piece_of_mem hchars
  unfold Lacks
  rw [String.toList_ofList]
  exact fun hmem => of_decide_eq_false (of_mem_pieces hpiece _ (hsub _ hmem)).1 rfl

theorem Lacks.trimEnd {c : Char} {text : String} (h : Lacks c text) :
    Lacks c (Text.trimEnd text) := by
  unfold Lacks Text.trimEnd
  rw [String.toList_ofList, List.mem_reverse]
  exact fun hmem => h (List.mem_reverse.mp ((List.dropWhile_sublist _).subset hmem))

/-- Nor do the lines of its program. -/
theorem lacks_of_mem_program {source text : String} (h : text ∈ program (lines source)) :
    Lacks '\n' text := by
  obtain ⟨line, hline, rfl⟩ := List.mem_map.mp ((List.takeWhile_sublist _).subset h)
  exact (lacks_of_mem_lines hline).trimEnd

/-- A decimal number holds nothing but digits. -/
theorem lacks_toString {c : Char} (hc : c.isDigit = false) (n : Nat) : Lacks c (toString n) := by
  unfold Lacks
  rw [Nat.toString_eq_ofList_toDigits, String.toList_ofList]
  intro hmem
  rw [Nat.isDigit_of_mem_toDigits (by decide) (by decide) hmem] at hc
  cases hc

end Text

/-! ## Columns -/

namespace Statement

/-- The control directives are `START` and `END`. -/
theorem isControl_mnemonic (s : Statement) :
    s.mnemonic.isControl = (s.isStart || s.isEnd) := by
  unfold isStart isEnd
  cases s.mnemonic with
  | machine op => rfl
  | unknown name => rfl
  | directive d => cases d <;> rfl

/-- **The words of a statement that are there are its fields**, in order. -/
theorem filter_words {s : Statement} (h : ∀ field ∈ s.fields, field ≠ "") :
    [s.label.getD "", s.mnemonic.name, s.operandText].filter (· ≠ "") = s.fields := by
  rw [operandText]
  rw [fields] at h ⊢
  cases hlabel : s.label with
  | none =>
    cases hop : s.operand with
    | none => simp_all
    | some operand => simp_all
  | some label =>
    cases hop : s.operand with
    | none => simp_all
    | some operand => simp_all

end Statement

namespace SecondPass

variable {lines : List String} {placed : List Statement}

/-- **A finished program keeps the fields of its lines.** -/
theorem forall₂_fields (hplaced : (FirstPass.run lines).result = .ok placed)
    (hfault : (run placed).fault = none) :
    List.Forall₂ (fun t text => t.fields = Text.fields text) (run placed).statements lines := by
  refine List.forall₂_iff_get.mpr ⟨length_statements hplaced hfault, fun k hk hline => ?_⟩
  obtain ⟨s, hread, hs⟩ := placed_of_getElem? hplaced hfault (List.getElem?_eq_getElem hk)
  rw [Plain.textAt_eq_getElem hline] at hread
  rw [List.get_eq_getElem, List.get_eq_getElem, ← Statement.fields_of_read hread]
  show Statement.fields (Statement.uncoded _) = _
  rw [hs]
  rfl

/-- The fields of a finished statement are words of a line. -/
theorem of_mem_fields (hplaced : (FirstPass.run lines).result = .ok placed)
    (hfault : (run placed).fault = none) {t : Statement} (ht : t ∈ (run placed).statements)
    {field : String} (hfield : field ∈ t.fields) :
    ∃ text ∈ lines, field ≠ "" ∧ ∀ c ∈ field.toList, Text.isBlank c = false ∧ c ∈ text.toList := by
  obtain ⟨k, hk⟩ := List.mem_iff_getElem?.mp ht
  obtain ⟨text, htext, hown⟩ := exists_of_forall₂ (forall₂_fields hplaced hfault).flip hk
  rw [hown] at hfield
  exact ⟨text, List.mem_of_getElem? htext, Text.of_mem_fields hfield⟩

theorem ne_empty_of_mem_fields (hplaced : (FirstPass.run lines).result = .ok placed)
    (hfault : (run placed).fault = none) {t : Statement} (ht : t ∈ (run placed).statements)
    {field : String} (hfield : field ∈ t.fields) : field ≠ "" := by
  obtain ⟨text, -, hne, -⟩ := of_mem_fields hplaced hfault ht hfield
  exact hne

/-- **No column holds a tab or a line feed**, if no line holds a line feed. -/
theorem lacks_of_mem_columns (hplaced : (FirstPass.run lines).result = .ok placed)
    (hfault : (run placed).fault = none) (hlines : ∀ text ∈ lines, Text.Lacks '\n' text)
    {t : Statement} (ht : t ∈ (run placed).statements) {column : String}
    (hcolumn : column ∈ Listing.columns t) :
    Text.Lacks '\t' column ∧ Text.Lacks '\n' column := by
  have hempty : Text.Lacks '\t' "" ∧ Text.Lacks '\n' "" := by decide
  have hdigits : ∀ {text}, Hex.AllDigits text → Text.Lacks '\t' text ∧ Text.Lacks '\n' text :=
    fun hall => ⟨hall.lacks (by decide), hall.lacks (by decide)⟩
  have hlegible := legible hplaced hfault t ht
  have hword : ∀ word ∈ [t.label.getD "", t.mnemonic.name, t.operandText],
      Text.Lacks '\t' word ∧ Text.Lacks '\n' word := by
    intro word hword
    by_cases hne : word = ""
    · rw [hne]
      exact hempty
    · have hfield : word ∈ t.fields := by
        rw [← Statement.filter_words fun field => ne_empty_of_mem_fields hplaced hfault ht]
        exact List.mem_filter.mpr ⟨hword, decide_eq_true hne⟩
      obtain ⟨text, htext, -, hchars⟩ := of_mem_fields hplaced hfault ht hfield
      refine ⟨fun htab => ?_, fun hfeed => hlines text htext (hchars _ hfeed).2⟩
      exact absurd (hchars _ htab).1 (by decide)
  rw [Listing.columns] at hcolumn
  simp only [List.mem_cons, List.not_mem_nil, or_false] at hcolumn
  rcases hcolumn with rfl | rfl | rfl | rfl | rfl | rfl
  · exact ⟨Text.lacks_toString (by decide) _, Text.lacks_toString (by decide) _⟩
  · cases t.mnemonic.isControl with
    | true => exact hempty
    | false =>
      cases haddress : t.address with
      | none => exact hempty
      | some address => exact hdigits (hlegible.address address haddress).allDigits
  · exact hword _ (by simp)
  · exact hword _ (by simp)
  · exact hword _ (by simp)
  · cases hcode : t.code with
    | none => exact hempty
    | some code => exact hdigits (hlegible.code code hcode).allDigits

end SecondPass

/-! ## Rows -/

namespace Listing

/-- **The source line of a row**: the columns with the label, the mnemonic and the
operand, as far as there is anything in them, with a space between them. -/
def sourceOfRow (row : String) : String :=
  " ".intercalate ((((Text.split (· = '\t') row).drop 2).take 3).filter (· ≠ ""))

/-- **A row is cut into its columns.** -/
theorem split_row {s : Statement} (h : ∀ column ∈ columns s, Text.Lacks '\t' column) :
    Text.split (· = '\t') (row s)
      = [toString s.line, if s.isStart || s.isEnd then "" else s.address.getD "",
         s.label.getD "", s.mnemonic.name, s.operandText, s.code.getD ""] := by
  have hne : columns s ≠ [] := List.cons_ne_nil _ _
  rw [row, Text.split_intercalate rfl hne h, columns, s.isControl_mnemonic]

/-- The row of a statement makes its source line. -/
theorem sourceOfRow_row {s : Statement} (h : ∀ column ∈ columns s, Text.Lacks '\t' column)
    (hfields : ∀ field ∈ s.fields, field ≠ "") : sourceOfRow (row s) = s.source := by
  rw [sourceOfRow, split_row h, Statement.source, ← Statement.filter_words hfields]
  rfl

/-- A listing is cut into its rows. -/
theorem split_render {statements : List Statement}
    (h : ∀ s ∈ statements, ∀ column ∈ columns s, Text.Lacks '\n' column) :
    Text.split (· = '\n') (render statements) = statements.map row ++ [""] := by
  have hrows : ∀ text ∈ statements.map row, Text.Lacks '\n' text := by
    intro text htext
    obtain ⟨s, hs, rfl⟩ := List.mem_map.mp htext
    exact Text.Lacks.intercalate (by decide) (h s hs)
  rw [← Text.split_lines hrows, List.map_map]
  rfl

end Listing

/-- The lines made of a listing have the fields of the source. -/
theorem SecondPass.sameFields_source {lines : List String} {placed : List Statement}
    (hplaced : (FirstPass.run lines).result = .ok placed) (hfault : (run placed).fault = none) :
    List.Forall₂ (fun other text => Text.fields other = Text.fields text)
      ((run placed).statements.map Statement.source) lines := by
  rw [List.forall₂_map_left_iff]
  exact (forall₂_fields hplaced hfault).imp fun t text hfields => Statement.fields_source hfields

/-- **A listing shows its program and can be assembled again.** Cut at line feeds the
listing of a source text is one row for each statement and nothing behind the last, and
cut at tabs a row is six columns: the number of the line, the address unless the
statement is a `START` or an `END` or has none, the label, the mnemonic, the operand and
the code. The lines made of the rows go through both passes without a fault, with the
same statements, the same diagnostics and the same object program as the source text. -/
theorem listing_assembles_again {settings : Settings} {source : String} {assembly : Assembly}
    (h : assembleText settings source = .ok assembly) :
    ∃ rows, Text.split (· = '\n') assembly.listing = rows ++ [""]
      ∧ List.Forall₂ (fun s row => Text.split (· = '\t') row
          = [toString s.line, if s.isStart || s.isEnd then "" else s.address.getD "",
             s.label.getD "", s.mnemonic.name, s.operandText, s.code.getD ""])
          assembly.statements rows
      ∧ ∃ placed, (FirstPass.run (rows.map Listing.sourceOfRow)).result = .ok placed
        ∧ (SecondPass.run placed).fault = none
        ∧ (SecondPass.run placed).statements = assembly.statements
        ∧ (FirstPass.run (rows.map Listing.sourceOfRow)).diagnostics
            ++ (SecondPass.run placed).diagnostics = assembly.diagnostics
        ∧ ObjectProgram.build settings (SecondPass.run placed).statements
            = .ok assembly.object := by
  obtain ⟨placed, hmade⟩ := exists_made h
  have hplaced := hmade.accepted
  have hfault := hmade.finished
  have hlacks : ∀ t ∈ assembly.statements, ∀ column ∈ Listing.columns t,
      Text.Lacks '\t' column ∧ Text.Lacks '\n' column := by
    rw [hmade.statements]
    exact fun t ht column => SecondPass.lacks_of_mem_columns hplaced hfault
      (fun text => Text.lacks_of_mem_program) ht
  have hsource : (assembly.statements.map Listing.row).map Listing.sourceOfRow
      = assembly.statements.map Statement.source := by
    rw [List.map_map]
    refine List.map_congr_left fun t ht => ?_
    rw [Function.comp_apply]
    refine Listing.sourceOfRow_row (fun column hcolumn => (hlacks t ht column hcolumn).1) ?_
    rw [hmade.statements] at ht
    exact fun field => SecondPass.ne_empty_of_mem_fields hplaced hfault ht
  have hagain : FirstPass.run ((assembly.statements.map Listing.row).map Listing.sourceOfRow)
      = FirstPass.run (Text.program (Text.lines source)) := by
    rw [hsource, hmade.statements]
    exact FirstPass.run_of_sameFields (SecondPass.sameFields_source hplaced hfault) hplaced
  refine ⟨assembly.statements.map Listing.row, ?_, ?_, placed, ?_, hfault,
    hmade.statements.symm, ?_, ?_⟩
  · rw [hmade.listing]
    exact Listing.split_render fun t ht column hcolumn => (hlacks t ht column hcolumn).2
  · rw [List.forall₂_map_right_iff, List.forall₂_same]
    intro t ht
    exact Listing.split_row fun column hcolumn => (hlacks t ht column hcolumn).1
  · rw [hagain, hplaced]
  · rw [hagain, hmade.diagnostics]
  · rw [← hmade.statements, hmade.object]

/-- A source text with uneven blanks and line ends. -/
def looseSource : String := "P  START\t1000\r\n\tLDA   A,X\n X0\nA WORD 5f \nEND"

/-- The listing of that text, and what its rows are assembled to. -/
theorem listing_assembles_again_loose :
    ∃ assembly rows placed, assembleText {} looseSource = .ok assembly
      ∧ assembly.listing = "1\t\tP\tSTART\t1000\t\n2\t1000\t\tLDA\tA,X\t009006\n"
          ++ "3\t1003\t\tX0\t\t\n4\t1006\tA\tWORD\t5f\t00005f\n5\t\t\tEND\t\t\n"
      ∧ Text.split (· = '\n') assembly.listing = rows ++ [""]
      ∧ (FirstPass.run (rows.map Listing.sourceOfRow)).result = .ok placed
      ∧ (SecondPass.run placed).statements = assembly.statements := by
  obtain ⟨assembly, placed, hok, hmade, hlisting, -⟩ :=
    exists_assembly_made {} (Text.lines looseSource)
      (fun placed => Listing.render (SecondPass.run placed).statements) (fun _ => ())
      (a := "1\t\tP\tSTART\t1000\t\n2\t1000\t\tLDA\tA,X\t009006\n"
        ++ "3\t1003\t\tX0\t\t\n4\t1006\tA\tWORD\t5f\t00005f\n5\t\t\tEND\t\t\n")
      (b := ()) rfl (by decide +kernel)
  obtain ⟨rows, hrows, -, found, hfound, -, hstatements, -⟩ := listing_assembles_again hok
  refine ⟨assembly, rows, found, hok, ?_, hrows, hfound, hstatements⟩
  rw [hmade.listing, hmade.statements, hlisting]

end TwoPass
