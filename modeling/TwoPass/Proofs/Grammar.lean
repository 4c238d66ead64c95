import Mathlib.Data.List.TakeWhile
import TwoPass.Proofs.SourceText

/-!
# The grammar of a line

`Statement.read` cuts a line at blanks, throws the empty pieces away and goes by how many
are left. This module says what a line is without cutting anything, as a grammar in three
layers. A line is spaced out into words (`Text.Spaced`). A word is the name of a table
entry or of nothing (`Mnemonic.Names`), and a word behind it is an operand of the kind the
mnemonic takes (`Mnemonic.Takes`). One, two or three words make a statement
(`Statement.ReadAs`).

Each layer is a relation, and each is shown to be the graph of the function that the reader
uses. So the grammar leaves no choice: every line has one sequence of words, and if these
make a statement, they make one. The statements that come of it can be written down and
read again, because `Statement.source` puts the words back with a space between them.

The places where a reader could go wrong are the commas and the blanks. A comma divides an
operand only if the mnemonic takes a label, and then only the first one does, so the index
may hold commas and the label may be empty. Blanks are spaces and tabs, and any other kind
of space is part of a word.
-/

namespace TwoPass

/-! ## Words -/

namespace Text

/-- **A line spaced out into words.** -/
inductive Spaced : List Char → List (List Char) → Prop where
  /-- An empty line has no words. -/
  | done : Spaced [] []
  /-- A blank belongs to no word. -/
  | blank {c : Char} {rest : List Char} {words : List (List Char)} (cut : isBlank c = true)
      (more : Spaced rest words) : Spaced (c :: rest) words
  /-- A word has characters but no blanks, and goes on to the next blank or to the end. -/
  | word {word rest : List Char} {words : List (List Char)} (nonempty : word ≠ [])
      (unblank : ∀ c ∈ word, isBlank c = false) (ends : ∀ c ∈ rest.head?, isBlank c = true)
      (more : Spaced rest words) : Spaced (word ++ rest) (word :: words)

/-- **The words of a text.** -/
def HasWords (text : String) (words : List String) : Prop :=
  Spaced text.toList (words.map String.toList)

/-- The words of a line are its pieces that are not empty. -/
theorem Spaced.filter_pieces {chars : List Char} {words : List (List Char)}
    (h : Spaced chars words) : (pieces isBlank chars).filter (· ≠ []) = words := by
  induction h with
  | done => rfl
  | blank cut _ ih =>
    rw [pieces, if_pos cut]
    exact ih
  | @word word rest words nonempty unblank ends _ ih =>
    have hword : [word].filter (· ≠ []) = [word] :=
      List.filter_cons_of_pos (decide_eq_true nonempty)
    cases rest with
    | nil =>
      rw [List.append_nil, pieces_of_uncut unblank, hword, ← ih]
      rfl
    | cons c rest =>
      -- the blank behind the word cuts the line there, and leaves an empty piece of `c :: rest`
      have hc : isBlank c = true := ends c rfl
      rw [pieces, if_pos hc] at ih
      rw [pieces_append_cons hc, pieces_of_uncut unblank, List.filter_append, hword]
      exact congrArg (word :: ·) ih

/-- **Every line can be spaced out.** -/
theorem exists_spaced (chars : List Char) : ∃ words, Spaced chars words := by
  induction chars with
  | nil => exact ⟨[], .done⟩
  | cons c rest ih =>
    obtain ⟨words, hwords⟩ := ih
    by_cases hc : isBlank c = true
    · exact ⟨words, .blank hc hwords⟩
    · have hc : isBlank c = false := by simpa using hc
      -- the character is a word of its own, or it goes in front of the first word of the rest
      cases hwords with
      | done => exact ⟨[[c]], .word (List.cons_ne_nil c []) (by simpa using hc) (by simp) .done⟩
      | blank cut more =>
        exact ⟨[c] :: words, .word (List.cons_ne_nil c []) (by simpa using hc)
          (by simpa using cut) (.blank cut more)⟩
      | @word word rest words _ unblank ends more =>
        refine ⟨(c :: word) :: words, .word (List.cons_ne_nil c word) ?_ ends more⟩
        intro d hd
        rcases List.mem_cons.mp hd with rfl | hd
        · exact hc
        · exact unblank d hd

/-- **The words of a text are its fields.** -/
theorem hasWords_iff {text : String} {words : List String} :
    HasWords text words ↔ words = fields text := by
  constructor
  · intro h
    have hsame : String.ofList ∘ String.toList = id := funext fun _ => String.ofList_toList
    rw [fields, Spaced.filter_pieces h, List.map_map, hsame, List.map_id]
  · rintro rfl
    have hsame : String.toList ∘ String.ofList = id := funext fun _ => String.toList_ofList
    obtain ⟨words, hwords⟩ := exists_spaced text.toList
    rw [HasWords, fields, hwords.filter_pieces, List.map_map, hsame, List.map_id]
    exact hwords

/-! ## Commas -/

/-- Only a text without a comma is not divided. -/
theorem splitComma?_eq_none_iff {text : String} : splitComma? text = none ↔ Lacks ',' text := by
  have hnone : text.toList.dropWhile (· ≠ ',') = [] ↔ Lacks ',' text := by
    rw [List.dropWhile_eq_nil_iff]
    exact ⟨fun h hcomma => absurd (h ',' hcomma) (by decide),
      fun h c hc => decide_eq_true fun hcomma => h (hcomma ▸ hc)⟩
  rw [← hnone]
  unfold splitComma?
  split
  · next hdrop => exact ⟨fun _ => hdrop, fun _ => rfl⟩
  · next hdrop =>
    constructor
    · intro h
      cases h
    · intro h
      rw [hdrop] at h
      cases h

/-- **A text is divided at its first comma.** -/
theorem splitComma?_eq_some_iff {text label index : String} :
    splitComma? text = some (label, index)
      ↔ Lacks ',' label ∧ text = label ++ "," ++ index := by
  constructor
  · intro h
    refine ⟨?_, (join_splitComma? h).symm⟩
    unfold splitComma? at h
    split at h
    · cases h
    · cases h
      unfold Lacks
      rw [String.toList_ofList]
      exact fun hmem => absurd (List.mem_takeWhile_imp hmem) (by decide)
  · rintro ⟨hlabel, rfl⟩
    have hchars : ∀ c ∈ label.toList, decide (c ≠ ',') = true :=
      fun c hc => decide_eq_true fun hcomma => hlabel (hcomma ▸ hc)
    have htext : (label ++ "," ++ index).toList = label.toList ++ ',' :: index.toList := by
      rw [String.toList_append, String.toList_append, List.append_assoc]
      rfl
    unfold splitComma?
    rw [htext, List.dropWhile_append_of_pos hchars, List.takeWhile_append_of_pos hchars]
    simp

end Text

/-! ## Mnemonics and operands -/

namespace Mnemonic

/-- **What a word names**: the entry of the table with that name, or nothing if the table
has none. -/
inductive Names (word : String) : Mnemonic → Prop where
  /-- The table has the word. -/
  | entry {mnemonic : Mnemonic} (listed : mnemonic ∈ table) (named : mnemonic.name = word) :
      Names word mnemonic
  /-- The table does not have the word. -/
  | nothing (unlisted : ∀ entry ∈ table, entry.name ≠ word) : Names word (.unknown word)

/-- No name is in the table twice. -/
theorem nodup_names : (table.map name).Nodup := by decide +kernel

/-- **A word names what it is looked up as.** -/
theorem names_iff {word : String} {mnemonic : Mnemonic} :
    Names word mnemonic ↔ mnemonic = lookup word := by
  constructor
  · intro h
    unfold lookup
    cases h with
    | entry listed named =>
      have hsome : (table.find? (·.name = word)).isSome :=
        List.find?_isSome.mpr ⟨mnemonic, listed, decide_eq_true named⟩
      obtain ⟨found, hfound⟩ := Option.isSome_iff_exists.mp hsome
      have hname := List.find?_some hfound
      have hsame : found.name = mnemonic.name := (of_decide_eq_true hname).trans named.symm
      rw [hfound, Option.getD_some]
      exact (List.inj_on_of_nodup_map nodup_names (List.mem_of_find?_eq_some hfound) listed
        hsame).symm
    | nothing unlisted =>
      have hnone : table.find? (·.name = word) = none :=
        List.find?_eq_none.mpr fun entry hentry => by simpa using unlisted entry hentry
      rw [hnone, Option.getD_none]
  · rintro rfl
    unfold lookup
    cases hfound : table.find? (·.name = word) with
    | none =>
      have hnone := List.find?_eq_none.mp hfound
      exact .nothing fun entry hentry => by simpa using hnone entry hentry
    | some found =>
      have hname := List.find?_some hfound
      exact .entry (List.mem_of_find?_eq_some hfound) (of_decide_eq_true hname)

/-- The mnemonics that work on a number. -/
def numbered : List Mnemonic :=
  [.directive .start, .directive .word, .directive .reserveWords, .directive .reserveBytes]

theorem takesNumber_iff {mnemonic : Mnemonic} :
    mnemonic.takesNumber = true ↔ mnemonic ∈ numbered := by
  cases mnemonic with
  | machine op => simp [takesNumber, numbered]
  | unknown name => simp [takesNumber, numbered]
  | directive d => cases d <;> decide

/-- **What a field stands for behind a mnemonic.** -/
inductive Takes (mnemonic : Mnemonic) : String → Operand → Prop where
  /-- A number, whatever it is spelt like. -/
  | number {field : String} (takes : mnemonic ∈ numbered) : Takes mnemonic field (.literal field)
  /-- A label. -/
  | label {field : String} (takes : mnemonic ∉ numbered) (whole : Text.Lacks ',' field) :
      Takes mnemonic field (.direct field)
  /-- A label and an index, with the first comma between them. -/
  | indexed {label index : String} (takes : mnemonic ∉ numbered) (first : Text.Lacks ',' label) :
      Takes mnemonic (label ++ "," ++ index) (.indexed label index)

/-- **A field stands for the operand it is read as.** -/
theorem takes_iff {mnemonic : Mnemonic} {field : String} {operand : Operand} :
    mnemonic.Takes field operand ↔ operand = mnemonic.operand field := by
  unfold Mnemonic.operand
  simp only [takesNumber_iff]
  constructor
  · intro h
    cases h with
    | number takes => rw [if_pos takes]
    | label takes whole => rw [if_neg takes, Text.splitComma?_eq_none_iff.mpr whole]
    | indexed takes first =>
      rw [if_neg takes, Text.splitComma?_eq_some_iff.mpr ⟨first, rfl⟩]
  · rintro rfl
    by_cases takes : mnemonic ∈ numbered
    · rw [if_pos takes]
      exact .number takes
    · rw [if_neg takes]
      split
      · next label index hcomma =>
        obtain ⟨hlabel, rfl⟩ := Text.splitComma?_eq_some_iff.mp hcomma
        exact .indexed takes hlabel
      · next hcomma => exact .label takes (Text.splitComma?_eq_none_iff.mp hcomma)

end Mnemonic

/-! ## Statements -/

namespace Statement

/-- **The statement that some words make on a line**, without an address and a code. -/
inductive ReadAs (line : Nat) : List String → Statement → Prop where
  /-- A mnemonic. -/
  | bare {word : String} {mnemonic : Mnemonic} (names : Mnemonic.Names word mnemonic) :
      ReadAs line [word] { line, label := none, mnemonic, operand := none }
  /-- A mnemonic and its operand. -/
  | working {word field : String} {mnemonic : Mnemonic} {operand : Operand}
      (names : Mnemonic.Names word mnemonic) (takes : mnemonic.Takes field operand) :
      ReadAs line [word, field] { line, label := none, mnemonic, operand := some operand }
  /-- A label, a mnemonic and its operand. -/
  | labelled {label word field : String} {mnemonic : Mnemonic} {operand : Operand}
      (names : Mnemonic.Names word mnemonic) (takes : mnemonic.Takes field operand) :
      ReadAs line [label, word, field]
        { line, label := some label, mnemonic, operand := some operand }

/-- **The reader follows the grammar.** -/
theorem read_eq_ok_iff {line : Nat} {text : String} {s : Statement} :
    read line text = .ok s ↔ ReadAs line (Text.fields text) s := by
  unfold read
  constructor
  · intro h
    split at h
    · next hfields =>
      cases h
      rw [hfields]
      exact .bare (Mnemonic.names_iff.mpr rfl)
    · next hfields =>
      cases h
      rw [hfields]
      exact .working (Mnemonic.names_iff.mpr rfl) (Mnemonic.takes_iff.mpr rfl)
    · next hfields =>
      cases h
      rw [hfields]
      exact .labelled (Mnemonic.names_iff.mpr rfl) (Mnemonic.takes_iff.mpr rfl)
    · cases h
  · intro h
    generalize Text.fields text = words at h
    cases h with
    | bare names =>
      obtain rfl := Mnemonic.names_iff.mp names
      rfl
    | working names takes =>
      obtain rfl := Mnemonic.names_iff.mp names
      obtain rfl := Mnemonic.takes_iff.mp takes
      rfl
    | labelled names takes =>
      obtain rfl := Mnemonic.names_iff.mp names
      obtain rfl := Mnemonic.takes_iff.mp takes
      rfl

/-- A line is read exactly if it has one to three fields. -/
theorem exists_read_iff {line : Nat} {text : String} :
    (∃ s, read line text = .ok s) ↔ Plain.WellFormed text := by
  constructor
  · rintro ⟨s, h⟩
    exact Plain.wellFormed_of_read h
  · intro hwell
    cases h : read line text with
    | ok s => exact ⟨s, rfl⟩
    | error fault => exact absurd hwell (Plain.fault_of_read h).2

/-- **The grammar of a line.** Every text has one sequence of words. It is read exactly if
these are one, two or three, as the statement that the grammar makes of them, and otherwise
it is refused with their number. A statement that was read is written as its words with a
space between them, and it is read again from what is written, and from any other text with
the same words. -/
theorem read_follows_grammar (line : Nat) (text : String) :
    ∃ words, (∀ others, Text.HasWords text others ↔ others = words)
      ∧ ((∃ s, read line text = .ok s) ↔ 1 ≤ words.length ∧ words.length ≤ 3)
      ∧ (¬ (1 ≤ words.length ∧ words.length ≤ 3) →
          read line text = .error (.fieldCount line text words.length))
      ∧ (∀ s, read line text = .ok s ↔ ReadAs line words s)
      ∧ ∀ s, read line text = .ok s →
          s.source = " ".intercalate words ∧ read line s.source = .ok s
            ∧ ∀ other, Text.HasWords other words → read line other = .ok s := by
  refine ⟨Text.fields text, fun others => Text.hasWords_iff, exists_read_iff, fun hill => ?_,
    fun s => read_eq_ok_iff, fun s h => ⟨?_, ?_, fun other hother => ?_⟩⟩
  · cases h : read line text with
    | ok s => exact absurd (Plain.wellFormed_of_read h) hill
    | error fault => rw [(Plain.fault_of_read h).1]
  · rw [source, fields_of_read h]
  · exact read_of_fields_eq h (fields_source (fields_of_read h))
  · exact read_of_fields_eq h (Text.hasWords_iff.mp hother).symm

-- another kind of space in a label, and an operand with nothing but commas around its index
example : read 7 "\tA\u00a0B  LDA\t,X, " = .ok
    { line := 7, label := some "A\u00a0B", mnemonic := .machine (.memory "LDA" 0)
      operand := some (.indexed "" "X,") } := by
  decide +kernel

end Statement

end TwoPass
