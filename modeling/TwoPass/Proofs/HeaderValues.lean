import TwoPass.Proofs.AddressFields
import TwoPass.Proofs.RefusedLines

/-!
# What the header and the end record say

The numbers in a header come out of three searches over the statements: for the first
`START`, from behind for an `END`, and for the first statement with an address that is no
`START`. Of a program that opens with its `START` all of them can be foretold from the
lines alone. Its addresses are the origin and the sizes of the lines before
(`Plain.address_eq_sum`), so the length in the header is the size of what comes before the
last `END` (`Plain.extent`), whatever stands behind it. The `START` itself takes no room,
and the line that the program is entered at lies at the origin.
-/

namespace TwoPass

namespace Hex

/-- **A field is its value in so many digits.** -/
theorem IsField.eq_fixed {w : Nat} {text : String} (h : IsField w text) :
    text = String.ofList (fixed w (value text)) := by
  refine h.eq_of_value_eq (isField_fixed w (value text)) ?_
  have hlt := value_lt_pow text
  rw [h.1] at hlt
  show value text = Nat.ofDigits 16 ((String.ofList _).toList.map digitValue).reverse
  rw [String.toList_ofList, ofDigits_fixed, Nat.mod_eq_of_lt hlt]

end Hex

namespace Plain

variable {lines : List String}

/-- **The lines before the last `END`**, or before the last line if no line is an `END`. -/
def beforeEnd (lines : List String) : List String :=
  match lines.reverse.dropWhile (!isEnd ·) with
  | [] => lines.dropLast
  | _ :: before => before.reverse

/-- The number of bytes that a program reaches over. -/
def extent (lines : List String) : Nat := ((beforeEnd lines).map size).sum

/-- The last `END` is the one with no other behind it. -/
theorem beforeEnd_eq {before behind : List String} {text : String}
    (hbehind : ∀ t ∈ behind, isEnd t = false)
    (hends : isEnd text = true ∨ behind = [] ∧ ∀ t ∈ before, isEnd t = false) :
    beforeEnd (before ++ text :: behind) = before := by
  have hskip : ∀ {texts : List String}, (∀ t ∈ texts, isEnd t = false) →
      ∀ t ∈ texts.reverse, (!isEnd t) = true := by
    intro texts hnone t ht
    rw [hnone t (List.mem_reverse.mp ht)]
    rfl
  rw [beforeEnd, List.reverse_append, List.reverse_cons, List.append_assoc,
    List.dropWhile_append_of_pos (hskip hbehind), List.singleton_append]
  cases hend : isEnd text with
  | true =>
    rw [List.dropWhile_cons_of_neg (by rw [hend]; exact Bool.false_ne_true)]
    exact List.reverse_reverse before
  | false =>
    -- there is no `END` at all, so the search runs through to the front
    rw [hend] at hends
    obtain ⟨rfl, hnone⟩ := hends.resolve_left Bool.false_ne_true
    rw [List.dropWhile_cons_of_pos (by rw [hend]; rfl), ← List.append_nil before.reverse,
      List.dropWhile_append_of_pos (hskip hnone)]
    exact List.dropLast_concat

/-- A `START` takes no room. -/
theorem size_of_isStart {text : String} (h : isStart text = true) : size text = 0 := by
  unfold isStart at h
  unfold size
  cases hparts : parts? text with
  | none =>
    rw [hparts] at h
    cases h
  | some parts =>
    rw [hparts, Option.any_some] at h
    exact if_pos (.inl (of_decide_eq_true h))

theorem Placed.label {k : Nat} {s : Statement} (h : Placed lines k s) :
    s.label = label? (textAt lines k) := by
  obtain ⟨t, hread, rfl⟩ := h
  show t.label = _
  exact label?_of_read hread

/-- **From the origin on one line lies behind the other**: the address of a line is the
origin and the sizes of the lines before it. -/
theorem address_eq_sum (hgood : ∀ k < lines.length, ¬ Violates lines k)
    (hstart : isStart (textAt lines 0) = true) {k : Nat} (hk : k < lines.length) :
    address lines k = some (origin (textAt lines 0) + ((lines.take k).map size).sum) := by
  induction k with
  | zero =>
    rw [address, if_pos hstart]
    rfl
  | succ k ih =>
    have hsingle : isStart (textAt lines (k + 1)) ≠ true := fun hsecond =>
      hgood (k + 1) hk (.inr (.inl ⟨hsecond, 0, Nat.succ_pos k, hstart⟩))
    have hlt : k < lines.length := Nat.lt_of_succ_lt hk
    rw [address_eq, if_neg hsingle, reached, ih hlt, List.take_succ_eq_append_getElem hlt,
      List.map_append, List.sum_append, textAt_eq_getElem hlt, ← Nat.add_assoc]
    rfl

end Plain

namespace ObjectProgram

variable {statements : List Statement}

/-- **The statement a program ends at** is an `END` with no other behind it or, for want of
one, a statement behind which none has an address. -/
theorem exists_split_of_last? {last : Statement} (h : last? statements = some last) :
    ∃ before behind, statements = before ++ last :: behind
      ∧ (last.isEnd = true ∧ (∀ s ∈ behind, s.isEnd = false)
        ∨ (∀ s ∈ statements, s.isEnd = false) ∧ ∀ s ∈ behind, s.address = none) := by
  have hsplit : ∀ {passed rest : List Statement}, statements.reverse = passed ++ last :: rest →
      statements = rest.reverse ++ last :: passed.reverse := by
    intro passed rest hreverse
    rw [← List.reverse_reverse statements, hreverse, List.reverse_append, List.reverse_cons,
      List.append_assoc, List.singleton_append]
  rcases Option.or_eq_some_iff.mp h with hend | ⟨hnone, hsome⟩
  · obtain ⟨hisEnd, passed, rest, hreverse, hpassed⟩ := List.find?_eq_some_iff_append.mp hend
    refine ⟨rest.reverse, passed.reverse, hsplit hreverse, .inl ⟨hisEnd, fun s hs => ?_⟩⟩
    simpa using hpassed s (List.mem_reverse.mp hs)
  · obtain ⟨-, passed, rest, hreverse, hpassed⟩ := List.find?_eq_some_iff_append.mp hsome
    refine ⟨rest.reverse, passed.reverse, hsplit hreverse, .inr ⟨fun s hs => ?_, fun s hs => ?_⟩⟩
    · exact Bool.eq_false_iff.mpr (List.find?_eq_none.mp hnone s (List.mem_reverse.mpr hs))
    · simpa using hpassed s (List.mem_reverse.mp hs)

/-- **The statement a program ends at**, if all have addresses, has no `END` behind it, and is
an `END` or, for want of one, the last statement of all. -/
theorem exists_append_of_last? {last : Statement}
    (haddress : ∀ s ∈ statements, s.address.isSome = true) (h : last? statements = some last) :
    ∃ before behind, statements = before ++ last :: behind
      ∧ (∀ s ∈ behind, s.isEnd = false)
      ∧ (last.isEnd = true ∨ behind = [] ∧ ∀ s ∈ before, s.isEnd = false) := by
  obtain ⟨before, behind, rfl, ⟨hend, hbehind⟩ | ⟨hnone, hlacks⟩⟩ := exists_split_of_last? h
  · exact ⟨before, behind, rfl, hbehind, .inl hend⟩
  · obtain rfl : behind = [] := by
      refine List.eq_nil_iff_forall_not_mem.mpr fun s hs => ?_
      have hsome := haddress s (List.mem_append_right _ (List.mem_cons_of_mem last hs))
      rw [hlacks s hs] at hsome
      cases hsome
    exact ⟨before, [], rfl, fun s hs => absurd hs List.not_mem_nil,
      .inr ⟨rfl, fun s hs => hnone s (List.mem_append_left _ hs)⟩⟩

end ObjectProgram

/-! ## Programs that open with their `START` -/

namespace SecondPass

variable {lines : List String} {placed : List Statement}

/-- The statements tell an `END` where the lines do. -/
theorem map_isEnd (hplaced : (FirstPass.run lines).result = .ok placed)
    (hfault : (run placed).fault = none) :
    (run placed).statements.map Statement.isEnd = lines.map Plain.isEnd := by
  have hlen := length_statements hplaced hfault
  refine List.ext_getElem (by rw [List.length_map, List.length_map, hlen]) fun k hk hk' => ?_
  rw [List.length_map] at hk hk'
  have hat := placed_of_getElem? hplaced hfault (List.getElem?_eq_getElem hk)
  rw [List.getElem_map, List.getElem_map, ← Plain.textAt_eq_getElem hk']
  exact hat.isEnd

/-- Where the statements of a program lie. -/
theorem location?_of_getElem? (hplaced : (FirstPass.run lines).result = .ok placed)
    (hfault : (run placed).fault = none)
    (hstart : Plain.isStart (Plain.textAt lines 0) = true) {k : Nat} {s : Statement}
    (hs : (run placed).statements[k]? = some s) :
    s.location?
      = some (Plain.origin (Plain.textAt lines 0) + ((lines.take k).map Plain.size).sum) := by
  obtain ⟨hlt, -⟩ := List.getElem?_eq_some_iff.mp hs
  rw [length_statements hplaced hfault] at hlt
  exact (placed_of_getElem? hplaced hfault hs).location?.trans
    (Plain.address_eq_sum (FirstPass.run_plain hplaced).1 hstart hlt)

/-- All statements of a program that opens with its `START` have addresses. -/
theorem isSome_address (hplaced : (FirstPass.run lines).result = .ok placed)
    (hfault : (run placed).fault = none)
    (hstart : Plain.isStart (Plain.textAt lines 0) = true) {s : Statement}
    (hs : s ∈ (run placed).statements) : s.address.isSome = true := by
  obtain ⟨k, hk⟩ := List.mem_iff_getElem?.mp hs
  obtain ⟨address, haddress, -⟩ :=
    Option.map_eq_some_iff.mp (location?_of_getElem? hplaced hfault hstart hk)
  rw [haddress]
  rfl

/-- **A program ends where its extent does.** -/
theorem location?_of_last? (hplaced : (FirstPass.run lines).result = .ok placed)
    (hfault : (run placed).fault = none)
    (hstart : Plain.isStart (Plain.textAt lines 0) = true) {last : Statement}
    (hlast : ObjectProgram.last? (run placed).statements = some last) :
    last.location? = some (Plain.origin (Plain.textAt lines 0) + Plain.extent lines) := by
  obtain ⟨before, behind, hsplit, hbehind, hends⟩ :=
    ObjectProgram.exists_append_of_last? (fun s => isSome_address hplaced hfault hstart) hlast
  have hat : (run placed).statements[before.length]? = some last := by
    rw [hsplit, List.getElem?_append_right (Nat.le_refl _), Nat.sub_self]
    rfl
  rw [location?_of_getElem? hplaced hfault hstart hat, Plain.extent]
  -- the lines fall apart in the same way as the statements
  have hmap := map_isEnd hplaced hfault
  rw [hsplit, List.map_append, List.map_cons] at hmap
  obtain ⟨own, rest, hlines, hown, hrest⟩ := List.map_eq_append_iff.mp hmap.symm
  obtain ⟨text, others, rfl, htext, hothers⟩ := List.map_eq_cons_iff.mp hrest
  have hbefore : Plain.beforeEnd lines = own := by
    rw [hlines]
    refine Plain.beforeEnd_eq (eq_false_of_map_eq hothers hbehind) ?_
    rw [htext]
    refine hends.imp_right fun ⟨hlast, hnone⟩ => ⟨?_, eq_false_of_map_eq hown hnone⟩
    rw [hlast] at hothers
    exact List.map_eq_nil_iff.mp hothers
  have hlength : own.length = before.length := by
    rw [← List.length_map (f := Plain.isEnd), hown, List.length_map]
  rw [hbefore, hlines, List.take_left' hlength]

end SecondPass

namespace ObjectProgram

variable {settings : Settings} {lines : List String} {placed : List Statement}

/-- **The header is foretold by the lines.** -/
theorem header_of_isStart (hplaced : (FirstPass.run lines).result = .ok placed)
    (hfault : (SecondPass.run placed).fault = none)
    (hstart : Plain.isStart (Plain.textAt lines 0) = true) {header : Header}
    (hheader : buildHeader settings (SecondPass.run placed).statements = .ok header) :
    header.name = (Plain.label? (Plain.textAt lines 0)).getD settings.programName
      ∧ Hex.value header.start = Plain.origin (Plain.textAt lines 0)
      ∧ Hex.value header.length = Plain.extent lines := by
  have hsequence := SecondPass.inSequence hplaced hfault hstart
  have hlegible := SecondPass.legible hplaced hfault
  obtain ⟨first, more, start, hopens, hfirst, haddress⟩ :=
    SecondPass.exists_start hplaced hfault hstart
  have hat : (SecondPass.run placed).statements[0]? = some first := by
    rw [hopens]
    rfl
  have hname : first.label = Plain.label? (Plain.textAt lines 0) :=
    (SecondPass.placed_of_getElem? hplaced hfault hat).label
  have hbegin := SecondPass.location?_of_getElem? hplaced hfault hstart hat
  rw [Statement.location?, haddress, Option.map_some, List.take_zero, List.map_nil, List.sum_nil,
    Nat.add_zero, Option.some_inj] at hbegin
  rw [hopens] at hsequence
  obtain ⟨last, stop, hends, hle⟩ := hsequence.exists_ends hfirst haddress
  rw [← hopens] at hends
  have hfinish := SecondPass.location?_of_last? hplaced hfault hstart hends.finishes
  rw [Statement.location?, hends.stop, Option.map_some, Option.some_inj] at hfinish
  obtain ⟨hvalue, hreach⟩ := hends.value_header hlegible hheader
  rw [hbegin] at hvalue
  rw [hvalue, hfinish] at hreach
  refine ⟨?_, hvalue, Nat.add_left_cancel hreach⟩
  rw [hends.buildHeader_eq hlegible, if_pos hle] at hheader
  rw [← Except.ok.inj hheader, programName, if_pos hfirst, hname]

/-- **A program is entered at its origin**, since the `START` takes no room. -/
theorem entry_of_isStart (hplaced : (FirstPass.run lines).result = .ok placed)
    (hfault : (SecondPass.run placed).fault = none)
    (hstart : Plain.isStart (Plain.textAt lines 0) = true) {entry : String}
    (hentry : buildEntry (SecondPass.run placed).statements = .ok entry) :
    Hex.value entry = Plain.origin (Plain.textAt lines 0) := by
  obtain ⟨s, -, address, -, hpadded, hentered⟩ := buildEntry_eq_ok hentry
  obtain ⟨first, more, -, hopens, hfirst, -⟩ := SecondPass.exists_start hplaced hfault hstart
  have hsequence := SecondPass.inSequence hplaced hfault hstart
  rw [hopens] at hsequence hentered
  have hmore : more.filter (!·.isStart) = more := by
    refine List.filter_eq_self.mpr fun t ht => ?_
    rw [hsequence.start t ht]
    rfl
  rw [List.filter_cons_of_neg (by rw [hfirst]; exact Bool.false_ne_true), hmore] at hentered
  cases more with
  | nil => cases hentered
  | cons second rest =>
    have hat : (SecondPass.run placed).statements[1]? = some second := by
      rw [hopens]
      rfl
    have hlocation := SecondPass.location?_of_getElem? hplaced hfault hstart hat
    have hstill : ((lines.take 1).map Plain.size).sum = 0 := by
      cases lines with
      | nil => rfl
      | cons text others => exact congrArg (· + 0) (Plain.size_of_isStart hstart)
    rw [hstill, Nat.add_zero] at hlocation
    obtain ⟨own, hown, hvalue⟩ := Option.map_eq_some_iff.mp hlocation
    rw [List.findSome?_cons, hown, Option.map_some] at hentered
    cases hentered
    rw [Statement.value_of_padded hpadded, hvalue]

end ObjectProgram

/-- **What the header and the end record say.** A program opens with its `START` and
assembles, under any settings. Then the header has the label of the `START` for a name, or
the name in the settings if there is none. Start and entry are the origin, and the length
is the number of bytes before the last `END`, or before the last line if there is no `END`.
All three are written in six digits, which hold them. -/
theorem header_and_entry_foretold {settings : Settings} {lines : List String}
    {assembly : Assembly} (h : assemble settings lines = .ok assembly)
    (hstart : Plain.isStart (Plain.textAt (Text.program lines) 0) = true) :
    assembly.object.header
        = { name := (Plain.label? (Plain.textAt (Text.program lines) 0)).getD settings.programName
            start := String.ofList
              (Hex.fixed 6 (Plain.origin (Plain.textAt (Text.program lines) 0)))
            length := String.ofList (Hex.fixed 6 (Plain.extent (Text.program lines))) }
      ∧ assembly.object.entry
        = String.ofList (Hex.fixed 6 (Plain.origin (Plain.textAt (Text.program lines) 0)))
      ∧ Plain.origin (Plain.textAt (Text.program lines) 0) < 16 ^ 6
      ∧ Plain.extent (Text.program lines) < 16 ^ 6 := by
  obtain ⟨placed, hplaced, hfault, hstatements, hobject⟩ := assemble_eq_ok h
  rw [hstatements, ObjectProgram.build_eq_buildInOrder hplaced hfault] at hobject
  obtain ⟨hheader, -, hentry⟩ := ObjectProgram.buildInOrder_eq_ok hobject
  obtain ⟨hname, horigin, hextent⟩ :=
    ObjectProgram.header_of_isStart hplaced hfault hstart hheader
  have hentered := ObjectProgram.entry_of_isStart hplaced hfault hstart hentry
  obtain ⟨hstartField, hlengthField⟩ := ObjectProgram.isField_header hplaced hfault hheader
  have hentryField := ObjectProgram.isField_entry hplaced hfault hentry
  refine ⟨?_, ?_, ?_, ?_⟩
  · rw [← hname, ← horigin, ← hextent, ← hstartField.eq_fixed, ← hlengthField.eq_fixed]
  · rw [← hentered, ← hentryField.eq_fixed]
  · rw [← horigin, ← hstartField.1]
    exact Hex.value_lt_pow _
  · rw [← hextent, ← hlengthField.1]
    exact Hex.value_lt_pow _

/-- A program without a name, and with two `END`s before its last line. -/
def namelessProgram : List String :=
  ["START fE0", "LDA A", "END", "A RESB 300", "RSUB", "END A", "WORD 5"]

/-- The last `END` counts, and the line behind it does not. -/
theorem header_and_entry_of_nameless :
    ∃ assembly, assemble { programName := "MAIN", recordCapacity := 0 } namelessProgram
        = .ok assembly
      ∧ Plain.isStart (Plain.textAt (Text.program namelessProgram) 0) = true
      ∧ assembly.object.header = { name := "MAIN", start := "000FE0", length := "000132" }
      ∧ assembly.object.entry = "000FE0" := by
  obtain ⟨assembly, -, hok, -, -, -⟩ :=
    exists_assembly_made { programName := "MAIN", recordCapacity := 0 } namelessProgram
      (fun _ => ()) (·.text.length) (a := ()) (b := 3) rfl (by decide +kernel)
  have hstart : Plain.isStart (Plain.textAt (Text.program namelessProgram) 0) = true := by
    decide +kernel
  obtain ⟨hheader, hentry, -, -⟩ := header_and_entry_foretold hok hstart
  refine ⟨assembly, hok, hstart, hheader.trans ?_, hentry.trans ?_⟩
  · decide +kernel
  · decide +kernel

end TwoPass
