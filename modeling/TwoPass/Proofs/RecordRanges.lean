import TwoPass.Proofs.Building

/-!
# The ranges of text records

A text record says where it begins, and the number of its bytes says where it ends.
If all codes have six digits, a record of `n` codes claims `3 * n` bytes
(`TextRecord.CutFrom.byteCount_eq`). Its statements may lie further apart than
that, since what takes memory between them is not in the record. They never lie
closer, so what a record claims ends no later than its last statement does
(`Statement.add_le_of_pairwise`). Whatever lies behind that statement, be it the
next record or the end of the program, is clear of the record.
-/

namespace TwoPass

namespace Statement

/-- Statements one behind the other lie before each other. -/
theorem Laid.pairwise {l : List Statement} {a : Nat} (h : Laid a l) : l.Pairwise LiesBefore := by
  induction l generalizing a with
  | nil => exact .nil
  | cons s rest ih =>
    refine .cons (fun t ht b c hb hc => ?_) (ih h.2)
    obtain ⟨d, hd, hle⟩ := h.2.le ht
    rw [h.1] at hb
    rw [hd] at hc
    cases hb
    cases hc
    exact hle

/-- **Statements of three bytes need three bytes each**: if they lie before each other
and all of them end at a bound, so does what they take without gaps. -/
theorem add_le_of_pairwise {l : List Statement} {first : Statement} {a bound : Nat}
    (hlies : l.Pairwise LiesBefore) (hthree : ∀ s ∈ l, s.bytes = 3)
    (hbound : ∀ s ∈ l, ∃ b, s.location? = some b ∧ b + 3 ≤ bound)
    (hfirst : l.head? = some first) (ha : first.location? = some a) :
    a + 3 * l.length ≤ bound := by
  induction l generalizing first a with
  | nil => cases hfirst
  | cons s rest ih =>
    cases hfirst
    obtain ⟨hbefore, hrest⟩ := List.pairwise_cons.mp hlies
    cases rest with
    | nil =>
      obtain ⟨b, hb, hle⟩ := hbound s List.mem_cons_self
      rw [ha] at hb
      cases hb
      exact hle
    | cons t more =>
      obtain ⟨b, hb, -⟩ := hbound t (List.mem_cons_of_mem s List.mem_cons_self)
      have hstep := hbefore t List.mem_cons_self a b ha hb
      have hmore := ih hrest (fun u hu => hthree u (List.mem_cons_of_mem s hu))
        (fun u hu => hbound u (List.mem_cons_of_mem s hu)) rfl hb
      rw [hthree s List.mem_cons_self] at hstep
      rw [List.length_cons]
      omega

end Statement

namespace TextRecord

variable {r : TextRecord} {built : List Statement}

/-- **A record claims three bytes for each of its statements** if its codes have six
digits. -/
theorem CutFrom.byteCount_eq (h : r.CutFrom built) (hsix : ∀ code ∈ r.codes, code.length = 6) :
    r.byteCount = 3 * built.length := by
  have hsize : ∀ code ∈ r.codes, code.utf8ByteSize = 6 := by
    intro code hcode
    obtain ⟨j, hj⟩ := List.mem_iff_getElem?.mp hcode
    obtain ⟨s, -, own, -, hpadded⟩ := exists_of_forall₂ h.codes hj
    obtain ⟨hnumeral, rfl⟩ := Hex.padLeft_eq_ok_iff.mp (mapError_eq_ok hpadded)
    rw [(hnumeral.leftpad addressDigits).allDigits.utf8ByteSize_eq, hsix _ hcode]
  have hsum : ∀ (codes : List String) (n : Nat), (∀ code ∈ codes, code.utf8ByteSize = 6) →
      codes.foldl (fun count code => count + code.utf8ByteSize) n = n + 6 * codes.length := by
    intro codes
    induction codes with
    | nil => exact fun n _ => rfl
    | cons code rest ih =>
      intro n hall
      rw [List.foldl_cons, ih _ fun c hc => hall c (List.mem_cons_of_mem code hc),
        hall code List.mem_cons_self, List.length_cons]
      omega
  rw [byteCount, hsum r.codes 0 hsize, h.codes.length_eq]
  omega

/-- **A record ends where its statements do, or earlier.** -/
theorem CutFrom.stop_le {bound : Nat} (h : r.CutFrom built)
    (hsix : ∀ code ∈ r.codes, code.length = 6) (hlies : built.Pairwise Statement.LiesBefore)
    (hthree : ∀ s ∈ built, s.bytes = 3)
    (hbound : ∀ s ∈ built, ∃ b, s.location? = some b ∧ b + 3 ≤ bound) :
    Hex.value r.address + r.byteCount ≤ bound := by
  obtain ⟨first, hfirst, hlocation⟩ := h.location?
  rw [h.byteCount_eq hsix]
  exact Statement.add_le_of_pairwise hlies hthree hbound hfirst hlocation

/-- A record takes memory. -/
theorem CutFrom.byteCount_pos (h : r.CutFrom built) (hsix : ∀ code ∈ r.codes, code.length = 6) :
    0 < r.byteCount := by
  obtain ⟨first, -, hfirst, -, -⟩ := h.address
  have hpos := List.length_pos_of_mem (List.mem_of_mem_head? hfirst)
  rw [h.byteCount_eq hsix]
  omega

end TextRecord

namespace ObjectProgram

variable {settings : Settings} {statements : List Statement}

/-- The statements of a record contribute to it. -/
theorem mem_of_mem_recordStatements {i : Nat} {s : Statement}
    (h : s ∈ recordStatements settings statements i) : s ∈ contributors statements :=
  List.mem_of_mem_drop (List.mem_of_mem_take h)

/-- The statements of a record come before those of a later one. -/
theorem liesBefore_of_lt (hlies : statements.Pairwise Statement.LiesBefore) {i j : Nat}
    (hij : i < j) {s t : Statement} (hs : s ∈ recordStatements settings statements i)
    (ht : t ∈ recordStatements settings statements j) : s.LiesBefore t := by
  have hlies : (contributors statements).Pairwise Statement.LiesBefore := hlies.filter _
  unfold recordStatements at hs ht
  generalize max 1 settings.recordCapacity = n at hs ht
  rw [← List.take_append_drop (j * n) (contributors statements), List.pairwise_append] at hlies
  refine hlies.2.2 s ?_ t (List.mem_of_mem_take ht)
  have hle : i * n + n ≤ j * n := by
    rw [← Nat.succ_mul]
    exact Nat.mul_le_mul_right n hij
  rw [List.take_drop] at hs
  exact List.take_subset_take_left _ hle (List.mem_of_mem_drop hs)

/-- **Records do not overlap**: of statements one behind the other, every record ends
where the later ones begin, or before. -/
theorem pairwise_text {a : Nat} {text : List TextRecord} (hlaid : Statement.Laid a statements)
    (hthree : ∀ s ∈ contributors statements, s.bytes = 3)
    (htext : buildText settings statements = .ok text)
    (hsix : ∀ r ∈ text, ∀ code ∈ r.codes, code.length = 6) :
    text.Pairwise fun r q => Hex.value r.address + r.byteCount ≤ Hex.value q.address := by
  rw [List.pairwise_iff_getElem]
  intro i j hi hj hij
  have hr := cutFrom_of_buildText htext (List.getElem?_eq_getElem hi)
  have hq := cutFrom_of_buildText htext (List.getElem?_eq_getElem hj)
  obtain ⟨first, hfirst, hlocation⟩ := hq.location?
  refine hr.stop_le (hsix _ (List.getElem_mem hi)) ((hlaid.pairwise.filter _).drop.take)
    (fun s hs => hthree s (mem_of_mem_recordStatements hs)) fun s hs => ?_
  have hmem := mem_of_mem_recordStatements hs
  obtain ⟨b, hb, -⟩ := hlaid.le (List.mem_filter.mp hmem).1
  have hbefore :=
    liesBefore_of_lt hlaid.pairwise hij hs (List.mem_of_mem_head? hfirst) b _ hb hlocation
  rw [hthree s hmem] at hbefore
  exact ⟨b, hb, hbefore⟩

/-- **Records lie inside the program**: between where its statements begin and an `END`
that comes last. -/
theorem text_within {a stop : Nat} {last : Statement} {text : List TextRecord}
    (hlaid : Statement.Laid a statements) (hthree : ∀ s ∈ contributors statements, s.bytes = 3)
    (htext : buildText settings statements = .ok text)
    (hsix : ∀ r ∈ text, ∀ code ∈ r.codes, code.length = 6)
    (hlast : statements.getLast? = some last) (hend : last.isEnd = true)
    (hstop : last.location? = some stop) {r : TextRecord} (hr : r ∈ text) :
    a ≤ Hex.value r.address ∧ Hex.value r.address + r.byteCount ≤ stop := by
  obtain ⟨i, hi⟩ := List.mem_iff_getElem?.mp hr
  have hcut := cutFrom_of_buildText htext hi
  obtain ⟨first, hfirst, hlocation⟩ := hcut.location?
  constructor
  · have hmem := mem_of_mem_recordStatements (List.mem_of_mem_head? hfirst)
    obtain ⟨b, hb, hle⟩ := hlaid.le (List.mem_filter.mp hmem).1
    rw [hlocation] at hb
    cases hb
    exact hle
  · refine hcut.stop_le (hsix r hr) ((hlaid.pairwise.filter _).drop.take)
      (fun s hs => hthree s (mem_of_mem_recordStatements hs)) fun s hs => ?_
    have hmem := mem_of_mem_recordStatements hs
    obtain ⟨hs, hcell⟩ := List.mem_filter.mp hmem
    obtain ⟨b, hb, -⟩ := hlaid.le hs
    -- the `END` has no code, so everything in a record comes before it
    obtain ⟨others, hsplit⟩ := List.getLast?_eq_some_iff.mp hlast
    have hlies := hlaid.pairwise
    rw [hsplit] at hs hlies
    rcases List.mem_append.mp hs with hs | hs
    · obtain ⟨-, -, hlies⟩ := List.pairwise_append.mp hlies
      have hbefore := hlies s hs last List.mem_cons_self b stop hb hstop
      rw [hthree s hmem] at hbefore
      exact ⟨b, hb, hbefore⟩
    · obtain rfl := List.mem_singleton.mp hs
      obtain ⟨cell, hcell⟩ := Option.isSome_iff_exists.mp hcell
      have hcontrol := (Statement.cell?_eq_some hcell).2.2.2
      rw [of_decide_eq_true hend] at hcontrol
      cases hcontrol

/-- A program ends at an `END` that comes last. -/
theorem last?_of_isEnd {last : Statement} (hlast : statements.getLast? = some last)
    (hend : last.isEnd = true) : last? statements = some last := by
  obtain ⟨others, rfl⟩ := List.getLast?_eq_some_iff.mp hlast
  rw [last?, List.reverse_append, List.reverse_singleton, List.singleton_append,
    List.find?_cons_of_pos hend]
  rfl

end ObjectProgram

namespace Plain

/-- Whether a line is an `END`. -/
def isEnd (text : String) : Bool := (parts? text).any (·.1 = "END")

theorem Placed.isEnd {lines : List String} {k : Nat} {s : Statement} (h : Placed lines k s) :
    s.isEnd = isEnd (textAt lines k) := by
  obtain ⟨t, hread, rfl⟩ := h
  obtain ⟨mnemonic, operand, hparts, hm, -, -⟩ := parts?_of_read hread
  rw [Statement.isEnd, Plain.isEnd, hparts, hm, Option.any_some, decide_eq_decide,
    Mnemonic.lookup_eq_directive_iff]
  rfl

end Plain

/-- A program that closes with an `END` has it for its last statement. -/
theorem SecondPass.exists_end {lines : List String} {placed : List Statement}
    (hplaced : (FirstPass.run lines).result = .ok placed) (hfault : (run placed).fault = none)
    (hend : Plain.isEnd (Plain.textAt lines (lines.length - 1)) = true) :
    ∃ last, (run placed).statements.getLast? = some last ∧ last.isEnd = true := by
  have hlen := (FirstPass.run_plain hplaced).2.1
  rw [← map_uncoded hplaced hfault, List.length_map] at hlen
  cases hlast : (run placed).statements.getLast? with
  | none =>
    rw [List.getLast?_eq_none_iff.mp hlast] at hlen
    rw [List.length_eq_zero_iff.mp hlen.symm] at hend
    exact absurd hend (by decide +kernel)
  | some last =>
    refine ⟨last, rfl, ?_⟩
    rw [List.getLast?_eq_getElem?, hlen] at hlast
    exact (placed_of_getElem? hplaced hfault hlast).isEnd.trans hend

/-- **Text records lie inside the program and do not overlap.** A program opens with its
`START`, closes with its `END` and assembles, and all its codes have six digits. Then
what a text record claims begins no lower than the header says the program does and
ends no higher, and it ends where any later record begins, or before. The addresses of
the records therefore go up. -/
theorem text_ranges_disjoint_within {settings : Settings} {lines : List String}
    {assembly : Assembly} (h : assemble settings lines = .ok assembly)
    (hstart : Plain.isStart (Plain.textAt (Text.program lines) 0) = true)
    (hend : Plain.isEnd
      (Plain.textAt (Text.program lines) ((Text.program lines).length - 1)) = true)
    (hsix : ∀ r ∈ assembly.object.text, ∀ code ∈ r.codes, code.length = 6) :
    (∀ r ∈ assembly.object.text,
        Hex.value assembly.object.header.start ≤ Hex.value r.address
          ∧ Hex.value r.address + r.byteCount
            ≤ Hex.value assembly.object.header.start + Hex.value assembly.object.header.length)
      ∧ assembly.object.text.Pairwise fun r q =>
        Hex.value r.address + r.byteCount ≤ Hex.value q.address
          ∧ Hex.value r.address < Hex.value q.address := by
  obtain ⟨placed, hplaced, hfault, hstatements, hobject⟩ := assemble_eq_ok h
  have hsequence := SecondPass.inSequence hplaced hfault hstart
  have hlegible := SecondPass.legible hplaced hfault
  rw [hstatements, ObjectProgram.build, ObjectProgram.ordered_eq_self hsequence.line] at hobject
  obtain ⟨hheader, htext, -⟩ := ObjectProgram.buildInOrder_eq_ok hobject
  have hthree : ∀ s ∈ ObjectProgram.contributors (SecondPass.run placed).statements,
      s.bytes = 3 := by
    intro s hs
    obtain ⟨hmem, hcell⟩ := List.mem_filter.mp hs
    exact hsequence.bytes s hmem hcell
  obtain ⟨last, hlast, hisEnd⟩ := SecondPass.exists_end hplaced hfault hend
  obtain ⟨first, more, start, hopens, hfirst, haddress⟩ :=
    SecondPass.exists_start hplaced hfault hstart
  rw [hopens] at hsequence hlegible hheader htext hthree hlast
  -- the program reaches from the `START` to the `END`
  obtain ⟨closing, stop, hends, -⟩ := hsequence.exists_ends hfirst haddress
  obtain rfl : last = closing :=
    Option.some.inj ((ObjectProgram.last?_of_isEnd hlast hisEnd).symm.trans hends.finishes)
  obtain ⟨hbegin, hreach⟩ := hends.value_header hlegible hheader
  have hlaid := hsequence.laid_start haddress
  have hstop : last.location? = some (Hex.value stop) := by
    rw [Statement.location?, hends.stop, Option.map_some]
  refine ⟨fun r hr => ?_, ?_⟩
  · rw [hreach, hbegin]
    exact ObjectProgram.text_within hlaid hthree htext hsix hlast hisEnd hstop hr
  · refine (ObjectProgram.pairwise_text hlaid hthree htext hsix).imp_of_mem ?_
    intro r q hr _ hle
    obtain ⟨i, hi⟩ := List.mem_iff_getElem?.mp hr
    have hpos := (ObjectProgram.cutFrom_of_buildText htext hi).byteCount_pos (hsix r hr)
    exact ⟨hle, by omega⟩

/-- The two records of a program with a reservation inside the second. -/
theorem text_ranges_of_two_records :
    ∃ assembly r₀ r₁, assemble { recordCapacity := 2 } twoRecords = .ok assembly
      ∧ Plain.isStart (Plain.textAt (Text.program twoRecords) 0) = true
      ∧ Plain.isEnd (Plain.textAt (Text.program twoRecords)
        ((Text.program twoRecords).length - 1)) = true
      ∧ (∀ r ∈ assembly.object.text, ∀ code ∈ r.codes, code.length = 6)
      ∧ assembly.object.text = [r₀, r₁]
      ∧ Hex.value assembly.object.header.start ≤ Hex.value r₀.address
      ∧ Hex.value r₀.address + r₀.byteCount ≤ Hex.value r₁.address
      ∧ Hex.value r₁.address + r₁.byteCount
        ≤ Hex.value assembly.object.header.start + Hex.value assembly.object.header.length := by
  have hstart : Plain.isStart (Plain.textAt (Text.program twoRecords) 0) = true := by
    decide +kernel
  have hend : Plain.isEnd (Plain.textAt (Text.program twoRecords)
      ((Text.program twoRecords).length - 1)) = true := by
    decide +kernel
  have hshape : (FirstPass.run (Text.program twoRecords)).result.toOption.map (fun placed =>
      ((SecondPass.run placed).fault,
        (ObjectProgram.buildInOrder { recordCapacity := 2 }
          (SecondPass.run placed).statements).toOption.map
            (·.text.map (·.codes.map String.length))))
      = some (none, some [[6, 6], [6, 6]]) := by
    decide +kernel
  obtain ⟨placed, hplaced, hshape⟩ := Option.map_eq_some_iff.mp hshape
  obtain ⟨hfault, hlengths⟩ := Prod.mk.inj hshape
  obtain ⟨object, hobject, hlengths⟩ := Option.map_eq_some_iff.mp hlengths
  obtain ⟨assembly, hok, -, rfl⟩ := exists_assemble_eq_ok rfl
    (eq_ok_of_toOption hplaced) hfault (eq_ok_of_toOption hobject)
  have hsix : ∀ r ∈ assembly.object.text, ∀ code ∈ r.codes, code.length = 6 := by
    have hall : ∀ lengths ∈ assembly.object.text.map (·.codes.map String.length),
        ∀ n ∈ lengths, n = 6 := by
      rw [hlengths]
      decide
    exact fun r hr code hcode =>
      hall _ (List.mem_map_of_mem hr) _ (List.mem_map_of_mem hcode)
  obtain ⟨r₀, r₁, htext⟩ : ∃ r₀ r₁, assembly.object.text = [r₀, r₁] :=
    List.length_eq_two.mp (by simpa using congrArg List.length hlengths)
  obtain ⟨hwithin, hpairwise⟩ := text_ranges_disjoint_within hok hstart hend hsix
  refine ⟨assembly, r₀, r₁, hok, hstart, hend, hsix, htext, ?_⟩
  rw [htext] at hwithin hpairwise
  have hnext := (List.pairwise_cons.mp hpairwise).1 r₁ List.mem_cons_self
  exact ⟨(hwithin r₀ List.mem_cons_self).1, hnext.1,
    (hwithin r₁ (List.mem_cons_of_mem r₀ List.mem_cons_self)).2⟩

end TwoPass
