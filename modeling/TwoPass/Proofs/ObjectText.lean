import TwoPass.Proofs.Assembly
import TwoPass.Proofs.Bits
import TwoPass.Proofs.Pieces

/-!
# Object programs read back

An object program is written as lines whose parts stand between carets, and nothing in
it is escaped. The name of the program is any text at all, so it may hold carets of its
own, and the codes of a text record differ in length and are not counted. Still the
text can be read back, and this module holds the reader.

Two things make it work. Everything but the name went through `Hex.padLeft` when the
records were built, so it is made of digits and can hold neither a caret nor a line feed
(`ObjectProgram.inDigits_of_build`). And the name is the one part that stands between
parts whose number is known: whatever lies between the first caret of the header and the
last two is the name, carets included. Only a line feed in the name would be taken for
the end of the header.

## The reader

`ObjectProgram.ofText?` cuts the text into lines and the lines at carets. It looks at the
letter in front of each line, and it passes over the length of a text record, which says
nothing that the codes do not say.
-/

namespace TwoPass

/-! ## Reading -/

/-- The header on a line. Of its parts the last two are the address and the length; the
name is what lies before them. -/
def Header.ofLine? (line : String) : Option Header :=
  match Text.split (· = '^') line with
  | [] => none
  | tag :: parts =>
    match parts.reverse with
    | length :: start :: last :: others =>
      if tag = "H" then
        some { name := "^".intercalate (last :: others).reverse, start, length }
      else none
    | _ => none

/-- The text record on a line. -/
def TextRecord.ofLine? (line : String) : Option TextRecord :=
  match Text.split (· = '^') line with
  | tag :: address :: _ :: codes => if tag = "T" then some { address, codes } else none
  | _ => none

namespace ObjectProgram

/-- The address on the line of an end record. -/
def entryOfLine? (line : String) : Option String :=
  match Text.split (· = '^') line with
  | [tag, entry] => if tag = "E" then some entry else none
  | _ => none

/-- The object program of some lines: the header, the text records and the end
record. -/
def ofLines? (lines : List String) : Option ObjectProgram :=
  match lines with
  | [] => none
  | first :: more =>
    match more.reverse with
    | [] => none
    | last :: records => do
      let header ← Header.ofLine? first
      let text ← records.reverse.mapM TextRecord.ofLine?
      let entry ← entryOfLine? last
      return { header, text, entry }

/-- **The object program of a text**, every line of which ends with a line feed. -/
def ofText? (text : String) : Option ObjectProgram :=
  match (Text.split (· = '\n') text).reverse with
  | rest :: lines => if rest = "" then ofLines? lines.reverse else none
  | [] => none

end ObjectProgram

/-! ## Records made of digits -/

namespace Hex

/-- Digits lack whatever is no digit. -/
theorem AllDigits.lacks {text : String} (h : AllDigits text) {c : Char}
    (hc : (digit? c).isNone = true) : Text.Lacks c text := by
  intro hmem
  have hdigit := h c hmem
  simp_all

end Hex

/-- Whatever is padded for a record is made of digits. -/
theorem Statement.allDigits_of_padded {s : Statement} {text field : String}
    (h : s.padded text = .ok field) : Hex.AllDigits field := by
  obtain ⟨hnumeral, rfl⟩ := Hex.padLeft_eq_ok_iff.mp (mapError_eq_ok h)
  exact hnumeral.allDigits.leftpad addressDigits

namespace ObjectProgram

/-- **A program in digits**: every part of its records but the name is made of digits. -/
structure InDigits (p : ObjectProgram) : Prop where
  /-- The address of the header. -/
  start : Hex.AllDigits p.header.start
  /-- The length of the header. -/
  length : Hex.AllDigits p.header.length
  /-- The addresses of the text records. -/
  address : ∀ r ∈ p.text, Hex.AllDigits r.address
  /-- The codes of the text records. -/
  codes : ∀ r ∈ p.text, ∀ code ∈ r.codes, Hex.AllDigits code
  /-- The address of the end record. -/
  entry : Hex.AllDigits p.entry

variable {settings : Settings} {statements : List Statement}

/-- The numbers of a header were padded. -/
theorem allDigits_of_buildHeader {header : Header}
    (h : buildHeader settings statements = .ok header) :
    Hex.AllDigits header.start ∧ Hex.AllDigits header.length := by
  unfold buildHeader at h
  split at h
  · split at h
    · obtain ⟨difference, -, h⟩ := bind_eq_ok h
      obtain ⟨start, hstart, h⟩ := bind_eq_ok h
      obtain ⟨length, hlength, h⟩ := bind_eq_ok h
      cases h
      exact ⟨Statement.allDigits_of_padded hstart, Statement.allDigits_of_padded hlength⟩
    · cases h
  · cases h

/-- The address of the end record was padded. -/
theorem allDigits_of_buildEntry {entry : String} (h : buildEntry statements = .ok entry) :
    Hex.AllDigits entry := by
  obtain ⟨s, -, address, -, hpadded, -⟩ := buildEntry_eq_ok h
  exact Statement.allDigits_of_padded hpadded

/-- The addresses and codes of the text records were padded. -/
theorem allDigits_of_buildText {text : List TextRecord}
    (h : buildText settings statements = .ok text) {r : TextRecord} (hr : r ∈ text) :
    Hex.AllDigits r.address ∧ ∀ code ∈ r.codes, Hex.AllDigits code := by
  obtain ⟨i, hi⟩ := List.mem_iff_getElem?.mp hr
  obtain ⟨⟨first, others⟩, -, hmade⟩ := exists_of_forall₂ (forall₂_of_mapM h) hi
  obtain ⟨hcodes, haddress⟩ := TextRecord.ofCells_eq_ok hmade
  refine ⟨Statement.allDigits_of_padded haddress, fun code hcode => ?_⟩
  obtain ⟨j, hj⟩ := List.mem_iff_getElem?.mp hcode
  obtain ⟨cell, -, hpadded⟩ := exists_of_forall₂ hcodes hj
  exact Statement.allDigits_of_padded hpadded

/-- **Whatever is built is in digits**, of whatever statements. -/
theorem inDigits_of_build {object : ObjectProgram}
    (h : build settings statements = .ok object) : object.InDigits := by
  obtain ⟨hheader, htext, hentry⟩ := buildInOrder_eq_ok h
  obtain ⟨hstart, hlength⟩ := allDigits_of_buildHeader hheader
  exact ⟨hstart, hlength, fun r hr => (allDigits_of_buildText htext hr).1,
    fun r hr => (allDigits_of_buildText htext hr).2, allDigits_of_buildEntry hentry⟩

end ObjectProgram

/-! ## Lines and their parts -/

/-- A tag and the parts behind it are joined by carets. -/
theorem append_caretJoin (tag : String) (parts : List String) :
    tag ++ caretJoin parts = "^".intercalate (tag :: parts) := by
  induction parts generalizing tag with
  | nil => simp [caretJoin]
  | cons part more ih =>
    rw [String.intercalate_cons_cons, ← ih, caretJoin, List.map_cons, String.join_cons]
    simp only [String.append_assoc]
    rfl

/-- **A header is read back**, whatever its name is. -/
theorem Header.ofLine?_render {h : Header} (hstart : Hex.AllDigits h.start)
    (hlength : Hex.AllDigits h.length) : Header.ofLine? h.render = some h := by
  have hcut : Text.split (· = '^') h.render
      = "H" :: (Text.split (· = '^') h.name ++ [h.start, h.length]) := by
    have hcaret : ∀ a b : String, Text.split (· = '^') (a ++ "^" ++ b)
        = Text.split (· = '^') a ++ Text.split (· = '^') b :=
      Text.split_append (decide_eq_true rfl) rfl
    have htag : Text.Lacks '^' "H" := by decide
    have hnumbers : ∀ number, Hex.AllDigits number → Text.split (· = '^') number = [number] :=
      fun number hdigits => (hdigits.lacks (by decide)).split_eq
    rw [Header.render, append_caretJoin, String.intercalate_cons_cons, hcaret,
      String.intercalate_cons_cons, hcaret, String.intercalate_cons_cons, hcaret,
      String.intercalate_singleton, htag.split_eq, hnumbers _ hstart, hnumbers _ hlength]
    rfl
  have hname : "^".intercalate (Text.split (· = '^') h.name) = h.name :=
    Text.intercalate_split rfl h.name
  obtain ⟨last, others, hparts⟩ : ∃ last others,
      (Text.split (· = '^') h.name).reverse = last :: others := by
    refine List.exists_cons_of_ne_nil fun hnil => ?_
    exact Text.split_ne_nil _ _ (List.reverse_eq_nil_iff.mp hnil)
  have hback : (Text.split (· = '^') h.name ++ [h.start, h.length]).reverse
      = h.length :: h.start :: last :: others := by
    rw [List.reverse_append, hparts]
    rfl
  unfold Header.ofLine?
  simp only [hcut, hback, if_true]
  rw [← hparts, List.reverse_reverse, hname]

/-- **A text record is read back.** -/
theorem TextRecord.ofLine?_render {r : TextRecord} (haddress : Hex.AllDigits r.address)
    (hcodes : ∀ code ∈ r.codes, Hex.AllDigits code) : TextRecord.ofLine? r.render = some r := by
  have hparts : ∀ part ∈ "T" :: r.address :: r.lengthField :: r.codes, Text.Lacks '^' part := by
    intro part hpart
    simp only [List.mem_cons] at hpart
    rcases hpart with rfl | rfl | rfl | hpart
    · decide
    · exact haddress.lacks (by decide)
    · exact (Hex.allDigits_fixed _ _).lacks (by decide)
    · exact (hcodes part hpart).lacks (by decide)
  unfold TextRecord.ofLine?
  rw [TextRecord.render, append_caretJoin,
    Text.split_intercalate rfl (List.cons_ne_nil _ _) hparts]
  rfl

namespace ObjectProgram

theorem entryOfLine?_endLine {p : ObjectProgram} (h : Hex.AllDigits p.entry) :
    entryOfLine? p.endLine = some p.entry := by
  have hparts : ∀ part ∈ ["E", p.entry], Text.Lacks '^' part := by
    intro part hpart
    simp only [List.mem_cons, List.not_mem_nil, or_false] at hpart
    rcases hpart with rfl | rfl
    · decide
    · exact h.lacks (by decide)
  unfold entryOfLine?
  rw [endLine, append_caretJoin, Text.split_intercalate rfl (List.cons_ne_nil _ _) hparts]
  rfl

variable {p : ObjectProgram}

/-- No line holds a line feed unless the name does. -/
theorem InDigits.lacks_of_mem_lines (h : p.InDigits) (hname : Text.Lacks '\n' p.header.name) :
    ∀ line ∈ p.lines, Text.Lacks '\n' line := by
  have hjoin : ∀ tag parts, Text.Lacks '\n' tag → (∀ part ∈ parts, Text.Lacks '\n' part) →
      Text.Lacks '\n' (tag ++ caretJoin parts) := by
    intro tag parts htag hparts
    rw [append_caretJoin]
    refine Text.Lacks.intercalate (by decide) fun part hpart => ?_
    rcases List.mem_cons.mp hpart with rfl | hpart
    · exact htag
    · exact hparts part hpart
  have hdigits : ∀ {text}, Hex.AllDigits text → Text.Lacks '\n' text :=
    fun htext => htext.lacks (by decide)
  intro line hline
  rw [lines, List.mem_append, List.mem_cons, List.mem_map, List.mem_singleton] at hline
  rcases hline with (rfl | ⟨r, hr, rfl⟩) | rfl
  · refine hjoin _ _ (by decide) fun part hpart => ?_
    simp only [List.mem_cons, List.not_mem_nil, or_false] at hpart
    rcases hpart with rfl | rfl | rfl
    · exact hname
    · exact hdigits h.start
    · exact hdigits h.length
  · refine hjoin _ _ (by decide) fun part hpart => ?_
    simp only [List.mem_cons] at hpart
    rcases hpart with rfl | rfl | hpart
    · exact hdigits (h.address r hr)
    · exact hdigits (Hex.allDigits_fixed _ _)
    · exact hdigits (h.codes r hr part hpart)
  · refine hjoin _ _ (by decide) fun part hpart => ?_
    rw [List.mem_singleton.mp hpart]
    exact hdigits h.entry

/-- **The lines of the text are the records**, each ended by a line feed. -/
theorem InDigits.split_render (h : p.InDigits) (hname : Text.Lacks '\n' p.header.name) :
    Text.split (· = '\n') p.render = p.lines ++ [""] :=
  Text.split_lines (h.lacks_of_mem_lines hname)

/-- The records are read back from their lines. -/
theorem InDigits.ofLines?_lines (h : p.InDigits) : ofLines? p.lines = some p := by
  have htext : (p.text.map TextRecord.render).mapM TextRecord.ofLine? = some p.text :=
    mapM_map_eq_some fun r hr => TextRecord.ofLine?_render (h.address r hr) (h.codes r hr)
  unfold ofLines? lines
  rw [List.cons_append]
  simp only [List.reverse_append, List.reverse_singleton, List.singleton_append,
    List.reverse_reverse, Header.ofLine?_render h.start h.length, htext,
    entryOfLine?_endLine h.entry]
  rfl

/-- **A program in digits is read back from its text**, if its name has no line feed. -/
theorem InDigits.ofText?_render (h : p.InDigits) (hname : Text.Lacks '\n' p.header.name) :
    ofText? p.render = some p := by
  unfold ofText?
  rw [h.split_render hname, List.reverse_append, List.reverse_singleton, List.singleton_append]
  simp only [if_true, List.reverse_reverse, h.ofLines?_lines]

/-- **The text of an object program can be read back.** Whatever statements and settings
it was built from, in whatever order, and whatever its name is apart from line feeds, the
reader finds in the text exactly the program that was written. So two programs that were
built, from whatever, and have the same text are the same program. -/
theorem built_text_reads_back :
    (∀ settings statements object, build settings statements = .ok object →
        Text.Lacks '\n' object.header.name → ofText? object.render = some object)
      ∧ ∀ settings statements object settings' statements' object',
        build settings statements = .ok object → build settings' statements' = .ok object' →
        Text.Lacks '\n' object.header.name → Text.Lacks '\n' object'.header.name →
        object.render = object'.render → object = object' := by
  have hread : ∀ settings statements object, build settings statements = .ok object →
      Text.Lacks '\n' object.header.name → ofText? object.render = some object :=
    fun _ _ _ hbuild hname => (inDigits_of_build hbuild).ofText?_render hname
  refine ⟨hread, fun _ _ object _ _ object' hbuild hbuild' hname hname' htext => ?_⟩
  have hfirst := hread _ _ object hbuild hname
  rw [htext, hread _ _ object' hbuild' hname'] at hfirst
  exact (Option.some.inj hfirst).symm

/-- Statements with a name full of carets and codes of one, seven and eight digits. -/
def caretStatements : List Statement :=
  [{ line := 4, label := some "A^^1F^", mnemonic := .directive .start, operand := none
     address := some "a" },
   { line := 5, label := some "B", mnemonic := .unknown "X", operand := none
     address := some "C", code := some "12345678" },
   { line := 6, label := none, mnemonic := .directive .word, operand := none
     address := some "0b", code := some "abcdefa" },
   { line := 7, label := none, mnemonic := .directive .reserveWords, operand := none
     address := some "F", code := some "1" },
   { line := 9, label := none, mnemonic := .directive .finish, operand := none
     address := some "0000002a" }]

/-- What is built of them, two codes to a record. -/
def caretProgram : ObjectProgram :=
  { header := { name := "A^^1F^", start := "00000a", length := "000020" }
    text := [{ address := "00000C", codes := ["12345678", "abcdefa"] },
      { address := "00000F", codes := ["000001"] }]
    entry := "00000C" }

/-- The program is read back from its text, and nothing else that is built has that
text. -/
theorem built_text_reads_back_carets :
    build { recordCapacity := 2 } caretStatements.reverse = .ok caretProgram
      ∧ Text.Lacks '\n' caretProgram.header.name
      ∧ ofText? caretProgram.render = some caretProgram
      ∧ ∃ object, build { recordCapacity := 2, strict := true } caretStatements = .ok object
        ∧ object.render = caretProgram.render ∧ object = caretProgram := by
  have hline : caretStatements.Pairwise fun s t => s.line < t.line := by decide
  have hname : Text.Lacks '\n' caretProgram.header.name := by decide
  have hbuild : build { recordCapacity := 2 } caretStatements.reverse = .ok caretProgram := by
    rw [build, ordered_eq_of_perm (List.reverse_perm _).symm hline]
    exact eq_ok_of_toOption (by decide +kernel)
  have hother : ((build { recordCapacity := 2, strict := true } caretStatements).toOption.map
      fun object => (object.header.name, object.render))
      = some (caretProgram.header.name, caretProgram.render) := by
    rw [build, ordered_eq_self hline]
    decide +kernel
  obtain ⟨object, hobject, hsame⟩ := Option.map_eq_some_iff.mp hother
  obtain ⟨hsameName, htext⟩ := Prod.mk.inj hsame
  have hobject := eq_ok_of_toOption hobject
  exact ⟨hbuild, hname, built_text_reads_back.1 _ _ _ hbuild hname, object, hobject, htext,
    built_text_reads_back.2 _ _ _ _ _ _ hobject hbuild (hsameName ▸ hname) hname htext⟩

end ObjectProgram

end TwoPass
