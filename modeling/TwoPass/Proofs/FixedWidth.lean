import TwoPass.Proofs.ObjectText
import TwoPass.Proofs.RecordRanges
import TwoPass.Proofs.References

/-!
# The format of object files

A loader reads an object file by columns: addresses have six digits, the length of a text
record two, and a code six. Nothing in `ObjectProgram.render` cuts a part to its width;
the parts are padded, and one that is too long stays so. That the columns hold is
therefore a statement about programs, and this module says of which.

* Addresses come from the first pass, which refuses those above `maxAddress`, and six
  digits hold the others (`SecondPass.isField_padded`).
* A code has six digits unless it is a constant with more, which is reported, or it
  refers to an address with more than four (`SecondPass.length_code_eq`).
* Eighty-five codes of six digits are 255 bytes, the most that two digits hold
  (`TextRecord.isField_lengthField`).

`ObjectProgram.IsFile` is the format itself, said about the text and without the records
it was written from.
-/

namespace TwoPass

/-! ## The format -/

/-- **A field of fixed width**: so many digits, all in upper case. -/
def Hex.IsField (w : Nat) (text : String) : Prop :=
  text.length = w ∧ ∀ c ∈ text.toList, c ∈ Hex.upperDigits

/-- **The line of a text record**: an address, the number of bytes, and at least one and
at most so many codes of three bytes each. -/
def TextRecord.IsLine (capacity : Nat) (line : String) : Prop :=
  ∃ address count codes, line = "^".intercalate ("T" :: address :: count :: codes)
    ∧ Hex.IsField 6 address ∧ Hex.IsField 2 count ∧ Hex.value count = 3 * codes.length
    ∧ (∀ code ∈ codes, code.length = 6 ∧ Hex.AllDigits code)
    ∧ 1 ≤ codes.length ∧ codes.length ≤ max 1 capacity

/-- **An object file**: the line of a header, the lines of the text records and the line
of an end record, with nothing behind the last line feed. -/
def ObjectProgram.IsFile (name : String) (capacity : Nat) (text : String) : Prop :=
  ∃ start length entry records,
    Text.split (· = '\n') text
        = "^".intercalate ["H", name, start, length] :: records
          ++ ["^".intercalate ["E", entry], ""]
      ∧ Hex.IsField 6 start ∧ Hex.IsField 6 length ∧ Hex.IsField 6 entry
      ∧ ∀ line ∈ records, TextRecord.IsLine capacity line

/-! ## Fields -/

namespace Hex

/-- The digits of a number fill a field. -/
theorem isField_fixed (w v : Nat) : IsField w (String.ofList (fixed w v)) := by
  refine ⟨?_, fun c hc => ?_⟩
  · rw [String.length_ofList, length_fixed]
  · rw [String.toList_ofList] at hc
    obtain ⟨d, hd, rfl⟩ := mem_fixed hc
    have hall : ∀ d < 16, digitChar d ∈ upperDigits := by decide
    exact hall d hd

/-- A number that fits is padded to the width of the field. -/
theorem isField_leftpad {w v : Nat} (hw : 0 < w) (hv : v < 16 ^ w) :
    IsField w (String.ofList ((render v).toList.leftpad w '0')) := by
  refine ⟨?_, fun c hc => ?_⟩
  · rw [length_leftpad, length_render]
    exact Nat.max_eq_left ((width_le_iff hw).mpr hv)
  · rw [String.toList_ofList, List.leftpad, List.mem_append] at hc
    rcases hc with hzero | hdigit
    · rw [List.eq_of_mem_replicate hzero]
      decide
    · exact (spells_render v).upper c hdigit

end Hex

/-- Six digits hold every address of the machine. -/
theorem isField_recordField {v : Nat} (hv : v ≤ maxAddress) :
    Hex.IsField 6 (recordField (Hex.render v)) :=
  Hex.isField_leftpad (by decide) (Nat.lt_of_le_of_lt hv (by decide))

namespace SecondPass

variable {lines : List String} {placed : List Statement}

/-- **Six digits hold every address of a finished program.** -/
theorem isField_padded (hplaced : (FirstPass.run lines).result = .ok placed)
    (hfault : (run placed).fault = none) {t : Statement} (ht : t ∈ (run placed).statements)
    {address field : String} (haddress : t.address = some address)
    (hfield : t.padded address = .ok field) : Hex.IsField 6 field := by
  obtain ⟨v, hv, rfl⟩ := address_of_mem hplaced hfault ht haddress
  obtain ⟨-, rfl⟩ := Statement.padded_eq_ok_iff.mp hfield
  exact isField_recordField hv

end SecondPass

/-! ## Codes -/

/-- The addresses with more than four digits are those above `0xFFFF`. -/
theorem Hex.lt_length_render_iff {v : Nat} : 4 < (render v).length ↔ 0xFFFF < v := by
  rw [length_render, ← Nat.not_le, width_le_iff (by decide)]
  omega

namespace Statement.CodedAs

variable {statements : List Statement} {s : Statement} {code : String}

/-- **The width of a code.** Behind an address the code has as many digits as its byte and
the address, behind a number as many as the number, and zeros make six out of fewer. -/
theorem length_eq (h : s.CodedAs statements code) :
    (s.operand = none ∧ code.length = 6)
      ∨ (∃ number, s.mnemonic = .directive .word ∧ s.operand = some (.literal number)
          ∧ Hex.IsNumeral number ∧ code.length = max 6 number.length)
      ∨ ∃ op v, s.mnemonic = .machine op ∧ s.referent? statements = some (Hex.render v)
          ∧ v ≤ maxAddress ∧ code.length = max 6 (2 + (Hex.render v).length) := by
  cases h with
  | constant hword hop hnumeral =>
    exact .inr (.inl ⟨_, hword, hop, hnumeral, Hex.length_leftpad _ _⟩)
  | bare hbegins hop =>
    have hshort := (Mnemonic.byte?_digits hbegins).2
    refine .inl ⟨hop, ?_⟩
    rw [Hex.length_padRight]
    exact Nat.max_eq_left (by unfold codeDigits; omega)
  | @direct op _ v hmachine _ hfound hfits =>
    refine .inr (.inr ⟨op, v, hmachine, hfound, hfits, ?_⟩)
    rw [Hex.length_padRight, String.length_append, op.length_code]
    rfl
  | @indexed op _ _ _ v hmachine _ hfound hfits hmade =>
    obtain ⟨hnumeral, hlen⟩ := Hex.isNumeral_of_address hfits rfl
    have hfour : fieldDigits = 4 := rfl
    refine .inr (.inr ⟨op, v, hmachine, hfound, hfits, ?_⟩)
    rw [String.length_append, op.length_code, (length_indexedField hnumeral (by omega) hmade).1]
    omega

/-- **A code with more than six digits** is that of a constant with more, or it refers to an
address above `0xFFFF`. -/
theorem lt_length_iff (h : s.CodedAs statements code) :
    6 < code.length
      ↔ (∃ number, s.mnemonic = .directive .word ∧ s.operand = some (.literal number)
            ∧ 6 < number.length)
        ∨ ∃ address, s.referent? statements = some address ∧ 0xFFFF < Hex.value address := by
  rcases h.length_eq with ⟨hop, hlen⟩ | ⟨number, hword, hop, -, hlen⟩
    | ⟨op, v, hmachine, hfound, -, hlen⟩
  · simp [hlen, hop, referent?]
  · simp [hlen, hword, hop, referent?]
  · have hfar := Hex.lt_length_render_iff (v := v)
    have hsix : 6 < code.length ↔ 4 < (Hex.render v).length := by omega
    rw [hsix, hfar, hmachine, hfound]
    simp [Hex.value_render]

end Statement.CodedAs

namespace SecondPass

variable {lines : List String} {placed : List Statement}

/-- **A code has six digits**, unless it is a constant with more or refers to an address
with more than four. -/
theorem length_code_eq (hplaced : (FirstPass.run lines).result = .ok placed)
    (hfault : (run placed).fault = none) {t : Statement} (ht : t ∈ (run placed).statements)
    (hwide : ∀ d ∈ (run placed).diagnostics, ∀ number, d.finding ≠ .operandTooWide number)
    (hnear : ∀ address, t.referent? (run placed).statements = some address →
      Hex.value address ≤ 0xFFFF)
    {code : String} (hcode : t.code = some code) : code.length = 6 := by
  rcases (codedAs hplaced hfault ht hcode).length_eq with ⟨-, hlen⟩
    | ⟨number, hword, hop, hnumeral, hlen⟩ | ⟨_, v, -, hfound, -, hlen⟩
  · exact hlen
  · rw [hlen]
    refine Nat.max_eq_left (Nat.le_of_not_lt fun hlong => ?_)
    refine hwide ⟨t.line, .operandTooWide number⟩ ?_ number rfl
    rw [diagnostics_run hplaced hfault]
    exact List.mem_flatMap.mpr
      ⟨t, ht, List.mem_map_of_mem (Statement.tooWide_mem_findings hword hop hnumeral hlong)⟩
  · have hnear := hnear _ hfound
    have hfar := Hex.lt_length_render_iff (v := v)
    rw [Hex.value_render] at hnear
    omega

end SecondPass

/-! ## Lines -/

namespace TextRecord

/-- Two digits hold the length of a record of up to 255 bytes. -/
theorem isField_lengthField {r : TextRecord} (h : r.byteCount ≤ 255) :
    Hex.IsField 2 r.lengthField ∧ Hex.value r.lengthField = r.byteCount := by
  have hwidth : max 2 (Hex.width r.byteCount) = 2 :=
    Nat.max_eq_left ((Hex.width_le_iff (by decide)).mpr (by omega))
  refine ⟨?_, ?_⟩
  · rw [lengthField, hwidth]
    exact Hex.isField_fixed 2 _
  · rw [lengthField, hwidth, Hex.value, String.toList_ofList, Hex.ofDigits_fixed]
    exact Nat.mod_eq_of_lt (by omega)

end TextRecord

namespace ObjectProgram

variable {settings : Settings} {lines : List String} {placed : List Statement}

/-- A record is cut from no more statements than the settings allow. -/
theorem length_recordStatements_le (settings : Settings) (statements : List Statement) (i : Nat) :
    (recordStatements settings statements i).length ≤ max 1 settings.recordCapacity :=
  List.length_take_le _ _

/-- **Every text record is a line of the format.** -/
theorem isLine_render (hplaced : (FirstPass.run lines).result = .ok placed)
    (hfault : (SecondPass.run placed).fault = none) (hcapacity : settings.recordCapacity ≤ 85)
    (hsix : ∀ t ∈ (SecondPass.run placed).statements, ∀ code, t.code = some code → code.length = 6)
    {text : List TextRecord}
    (htext : buildText settings (SecondPass.run placed).statements = .ok text)
    {r : TextRecord} (hr : r ∈ text) : TextRecord.IsLine settings.recordCapacity r.render := by
  obtain ⟨i, hi⟩ := List.mem_iff_getElem?.mp hr
  have hcut := cutFrom_of_buildText htext hi
  have hmost := length_recordStatements_le settings (SecondPass.run placed).statements i
  have hlength : ∀ code ∈ r.codes, code.length = 6 := by
    intro code hcode
    obtain ⟨j, hj⟩ := List.mem_iff_getElem?.mp hcode
    obtain ⟨t, ht, own, hown, hpadded⟩ := exists_of_forall₂ hcut.codes hj
    have hmem := mem_of_mem_recordStatements (List.mem_of_getElem? ht)
    obtain ⟨-, rfl⟩ := Hex.padLeft_eq_ok_iff.mp (mapError_eq_ok hpadded)
    rw [Hex.length_leftpad, hsix t (List.mem_filter.mp hmem).1 own hown]
    rfl
  have hcount := hcut.byteCount_eq hlength
  have hcodes := hcut.codes.length_eq
  obtain ⟨first, address, hfirst, haddress, hpadded⟩ := hcut.address
  have hmem := List.mem_of_mem_head? hfirst
  have hpos := List.length_pos_of_mem hmem
  obtain ⟨hfield, hvalue⟩ := r.isField_lengthField (by omega)
  refine ⟨r.address, r.lengthField, r.codes, append_caretJoin _ _, ?_, hfield, by omega,
    fun code hcode => ⟨hlength code hcode, (allDigits_of_buildText htext hr).2 code hcode⟩,
    by omega, by omega⟩
  exact SecondPass.isField_padded hplaced hfault
    (List.mem_filter.mp (mem_of_mem_recordStatements hmem)).1 haddress hpadded

/-- The numbers of the header are fields. -/
theorem isField_header (hplaced : (FirstPass.run lines).result = .ok placed)
    (hfault : (SecondPass.run placed).fault = none) {header : Header}
    (hheader : buildHeader settings (SecondPass.run placed).statements = .ok header) :
    Hex.IsField 6 header.start ∧ Hex.IsField 6 header.length := by
  obtain ⟨first, last, start, stop, hends, -, rfl⟩ :=
    exists_ends_of_buildHeader (SecondPass.legible hplaced hfault) hheader
  obtain ⟨v, hv, rfl⟩ :=
    SecondPass.address_of_mem hplaced hfault (mem_of_first? hends.begins) hends.start
  obtain ⟨u, hu, rfl⟩ :=
    SecondPass.address_of_mem hplaced hfault (mem_of_last? hends.finishes) hends.stop
  refine ⟨isField_recordField hv, isField_recordField ?_⟩
  rw [Hex.value_render, Hex.value_render]
  omega

/-- The address of the end record is a field. -/
theorem isField_entry (hplaced : (FirstPass.run lines).result = .ok placed)
    (hfault : (SecondPass.run placed).fault = none) {entry : String}
    (hentry : buildEntry (SecondPass.run placed).statements = .ok entry) :
    Hex.IsField 6 entry := by
  obtain ⟨s, hs, address, haddress, hpadded, -⟩ := buildEntry_eq_ok hentry
  exact SecondPass.isField_padded hplaced hfault hs haddress hpadded

end ObjectProgram

/-- **Object files keep their columns.** A program assembles, with at most 85 codes to a
record and a name that fits on its line. No constant of it is reported as too wide, and
every label it refers to lies where four digits reach. Then the text of the object
program is a file of the format. -/
theorem object_text_keeps_columns {settings : Settings} {lines : List String}
    {assembly : Assembly} (h : assemble settings lines = .ok assembly)
    (hcapacity : settings.recordCapacity ≤ 85)
    (hname : Text.Lacks '\n' assembly.object.header.name)
    (hwide : ∀ d ∈ assembly.diagnostics, ∀ number, d.finding ≠ .operandTooWide number)
    (hnear : ∀ s ∈ assembly.statements, ∀ address,
      s.referent? assembly.statements = some address → Hex.value address ≤ 0xFFFF) :
    ObjectProgram.IsFile assembly.object.header.name settings.recordCapacity
      assembly.object.render := by
  obtain ⟨placed, hmade⟩ := exists_made h
  have hplaced := hmade.accepted
  have hfault := hmade.finished
  have hdigits := ObjectProgram.inDigits_of_build hmade.object
  have hobject := hmade.object
  rw [hmade.diagnostics] at hwide
  rw [hmade.statements] at hnear hobject
  rw [ObjectProgram.build_eq_buildInOrder hplaced hfault] at hobject
  obtain ⟨hheader, htext, hentry⟩ := ObjectProgram.buildInOrder_eq_ok hobject
  obtain ⟨hstart, hlength⟩ := ObjectProgram.isField_header hplaced hfault hheader
  have hsix : ∀ t ∈ (SecondPass.run placed).statements, ∀ code, t.code = some code →
      code.length = 6 := fun t ht code hcode =>
    SecondPass.length_code_eq hplaced hfault ht
      (fun d hd => hwide d (List.mem_append_right _ hd)) (hnear t ht) hcode
  refine ⟨_, _, _, assembly.object.text.map TextRecord.render, ?_, hstart, hlength,
    ObjectProgram.isField_entry hplaced hfault hentry, ?_⟩
  · rw [hdigits.split_render hname, ObjectProgram.lines, Header.render, ObjectProgram.endLine,
      append_caretJoin, append_caretJoin, List.append_assoc]
    rfl
  · intro line hline
    obtain ⟨r, hr, rfl⟩ := List.mem_map.mp hline
    exact ObjectProgram.isLine_render hplaced hfault hcapacity hsix htext hr

/-- A program with a constant in lower case and a caret in its name. -/
def columnProgram : List String :=
  ["P^ START ff00", "LDA A", "STA B,X", "RSUB", "A WORD 5f", "B RESW 1", "END"]

/-- The columns of that program, two codes to a record. -/
theorem object_text_keeps_columns_two :
    ∃ assembly, assemble { recordCapacity := 2 } columnProgram = .ok assembly
      ∧ Text.Lacks '\n' assembly.object.header.name
      ∧ (∀ d ∈ assembly.diagnostics, ∀ number, d.finding ≠ .operandTooWide number)
      ∧ (∀ s ∈ assembly.statements, ∀ address,
        s.referent? assembly.statements = some address → Hex.value address ≤ 0xFFFF)
      ∧ (assembly.statements.filterMap (·.referent? assembly.statements)) = ["FF09", "FF0C"]
      ∧ ObjectProgram.IsFile "P^" 2 assembly.object.render := by
  obtain ⟨assembly, placed, hok, hmade, hpasses, hname⟩ :=
    exists_assembly_made { recordCapacity := 2 } columnProgram
      (fun placed => ((FirstPass.run (Text.program columnProgram)).diagnostics
          ++ (SecondPass.run placed).diagnostics,
        (SecondPass.run placed).statements.filterMap
          (·.referent? (SecondPass.run placed).statements)))
      (·.header.name) (a := ([], ["FF09", "FF0C"])) (b := "P^") rfl (by decide +kernel)
  obtain ⟨hdiagnostics, hreferents⟩ := Prod.mk.inj hpasses
  rw [← hmade.diagnostics] at hdiagnostics
  rw [← hmade.statements] at hreferents
  have hlacks : Text.Lacks '\n' assembly.object.header.name := by
    rw [hname]
    decide
  have hwide : ∀ d ∈ assembly.diagnostics, ∀ number, d.finding ≠ .operandTooWide number := by
    rw [hdiagnostics]
    exact fun d hd => absurd hd List.not_mem_nil
  have hnear : ∀ s ∈ assembly.statements, ∀ address,
      s.referent? assembly.statements = some address → Hex.value address ≤ 0xFFFF := by
    intro s hs address hfound
    have hmem := List.mem_filterMap.mpr ⟨s, hs, hfound⟩
    rw [hreferents] at hmem
    have hall : ∀ address ∈ ["FF09", "FF0C"], Hex.value address ≤ 0xFFFF := by decide
    exact hall address hmem
  refine ⟨assembly, hok, hlacks, hwide, hnear, hreferents, ?_⟩
  rw [← hname]
  exact object_text_keeps_columns hok (by decide) hlacks hwide hnear

end TwoPass
