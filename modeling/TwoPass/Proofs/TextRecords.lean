import TwoPass.Proofs.Building

/-!
# How codes are cut into text records

The builder goes through the statements in the order of their lines, takes those that
contribute, and cuts their codes into records of one size. The last record holds what is
left over. Nothing else decides what is in a record: not the addresses, not what lies
between two statements, and not what the header says. So the records can be told from the
contributors and the size alone (`TextRecord.CutUp`), and another size cuts the same
sequence of codes at other places.

It can decide over success, though. Of the addresses in a record only the first is read,
and a smaller record may have for its first a statement whose address is no numeral.
-/

namespace TwoPass

namespace Statement

/-- **Whether a statement contributes to the text records**: it is neither `START` nor
`END`, it has an address, and it has a code that is not empty. -/
def contributes (s : Statement) : Bool :=
  !s.mnemonic.isControl && s.address.isSome && s.code.any (· ≠ "")

/-- The statements with a cell are those that contribute. -/
theorem isSome_cell?_eq (s : Statement) : s.cell?.isSome = s.contributes := by
  unfold cell? contributes
  cases s.mnemonic.isControl with
  | true => rfl
  | false =>
    cases s.address with
    | none => rfl
    | some address =>
      cases s.code with
      | none => rfl
      | some code => by_cases hcode : code = "" <;> simp [hcode]

end Statement

/-- **Text records that cut up the codes of some statements**, so many codes to a
record. -/
structure TextRecord.CutUp (capacity : Nat) (statements : List Statement)
    (text : List TextRecord) : Prop where
  /-- The records hold all codes, in order and with zeros in front. -/
  codes : text.flatMap TextRecord.codes = statements.map fun s => recordField (s.code.getD "")
  /-- No record is empty, and none holds more than it can. -/
  size : ∀ r ∈ text, 1 ≤ r.codes.length ∧ r.codes.length ≤ max 1 capacity
  /-- Every record but the last is full. -/
  full : ∀ k r, text[k]? = some r → k + 1 < text.length → r.codes.length = max 1 capacity
  /-- A record has the address of its first statement, with zeros in front. -/
  address : ∀ k r, text[k]? = some r → ∃ s address, statements[k * max 1 capacity]? = some s
    ∧ s.address = some address ∧ r.address = recordField address
  /-- Without statements there are no records. -/
  none : statements = [] → text = []

namespace ObjectProgram

variable {settings : Settings} {statements : List Statement} {text : List TextRecord}

theorem contributors_eq (statements : List Statement) :
    contributors statements = statements.filter Statement.contributes :=
  congrArg (List.filter · statements) (funext Statement.isSome_cell?_eq)

/-- A record begins at its place among the contributors. -/
theorem head?_recordStatements (settings : Settings) (statements : List Statement) (i : Nat) :
    (recordStatements settings statements i).head?
      = (contributors statements)[i * max 1 settings.recordCapacity]? := by
  have hsize : max 1 settings.recordCapacity ≠ 0 := by omega
  rw [recordStatements, List.head?_take, if_neg hsize, List.head?_drop]

/-- The size of a record: what is left of the contributors, up to the capacity. -/
theorem length_codes_of_buildText (h : buildText settings statements = .ok text) {k : Nat}
    {r : TextRecord} (hr : text[k]? = some r) :
    r.codes.length = min (max 1 settings.recordCapacity)
      ((contributors statements).length - k * max 1 settings.recordCapacity) := by
  rw [← (cutFrom_of_buildText h hr).codes.length_eq, recordStatements, List.length_take,
    List.length_drop]

/-- The address of a record is that of its first statement. -/
theorem address_of_buildText (h : buildText settings statements = .ok text) {k : Nat}
    {r : TextRecord} (hr : text[k]? = some r) :
    ∃ s address, (contributors statements)[k * max 1 settings.recordCapacity]? = some s
      ∧ s.address = some address ∧ r.address = recordField address := by
  obtain ⟨s, address, hs, haddress, hpadded⟩ := (cutFrom_of_buildText h hr).address
  rw [head?_recordStatements] at hs
  exact ⟨s, address, hs, haddress, (Statement.padded_eq_ok_iff.mp hpadded).2⟩

/-- The codes in the records are those of the contributors. -/
theorem codes_of_buildText (h : buildText settings statements = .ok text) :
    text.flatMap TextRecord.codes
      = (contributors statements).map fun s => recordField (s.code.getD "") := by
  symm
  rw [← List.forall₂_eq_eq_eq, List.forall₂_map_left_iff]
  refine (forall₂_contributors h).imp ?_
  rintro s code ⟨own, hown, hpadded⟩
  rw [hown, Option.getD_some, (Statement.padded_eq_ok_iff.mp hpadded).2]

/-- **The text records cut up the codes of the contributors.** -/
theorem cutUp_of_buildText (h : buildText settings statements = .ok text) :
    TextRecord.CutUp settings.recordCapacity (contributors statements) text := by
  have hplace : ∀ {k : Nat} {r : TextRecord}, text[k]? = some r →
      k * max 1 settings.recordCapacity < (contributors statements).length := by
    intro k r hr
    obtain ⟨s, -, hs, -⟩ := address_of_buildText h hr
    exact (List.getElem?_eq_some_iff.mp hs).1
  refine ⟨codes_of_buildText h, fun r hr => ?_, fun k r hr hk => ?_,
    fun k r => address_of_buildText h, fun hnone => ?_⟩
  · obtain ⟨k, hk⟩ := List.mem_iff_getElem?.mp hr
    have hleft := hplace hk
    rw [length_codes_of_buildText h hk]
    omega
  · -- the record behind this one begins at a contributor, so this one is not short of any
    have hnext := hplace (List.getElem?_eq_getElem hk)
    rw [Nat.succ_mul] at hnext
    rw [length_codes_of_buildText h hr]
    omega
  · refine List.eq_nil_iff_forall_not_mem.mpr fun r hr => ?_
    obtain ⟨k, hk⟩ := List.mem_iff_getElem?.mp hr
    have hleft := hplace hk
    rw [hnone] at hleft
    exact absurd hleft (Nat.not_lt_zero _)

/-- **Text records lose nothing, repeat nothing and change no order.** Whatever statements
an object program is built of, put them in the order of their lines and take those that
contribute: the text records cut up their codes, as many to a record as the settings
allow. Another capacity with which the builder succeeds makes the same header, the same
entry and the same codes one after the other. -/
theorem text_cuts_up_codes :
    (∀ settings statements object, build settings statements = .ok object →
        ∃ sorted, InLineOrder statements sorted
          ∧ TextRecord.CutUp settings.recordCapacity (sorted.filter Statement.contributes)
            object.text)
      ∧ ∀ settings capacity statements object object',
        build settings statements = .ok object →
        build { settings with recordCapacity := capacity } statements = .ok object' →
        object'.header = object.header ∧ object'.entry = object.entry
          ∧ object'.text.flatMap TextRecord.codes = object.text.flatMap TextRecord.codes := by
  refine ⟨fun settings statements object h => ?_,
    fun settings capacity statements object object' h h' => ?_⟩
  · obtain ⟨-, htext, -⟩ := buildInOrder_eq_ok h
    refine ⟨ordered statements, inLineOrder_ordered statements, ?_⟩
    rw [← contributors_eq]
    exact cutUp_of_buildText htext
  · obtain ⟨hheader, htext, hentry⟩ := buildInOrder_eq_ok h
    obtain ⟨hheader', htext', hentry'⟩ := buildInOrder_eq_ok h'
    refine ⟨?_, ?_, ?_⟩
    · -- of the settings only the name of the program enters the header
      exact Except.ok.inj (hheader'.symm.trans hheader)
    · exact Except.ok.inj (hentry'.symm.trans hentry)
    · rw [codes_of_buildText htext, codes_of_buildText htext']

/-- Statements out of order, two of them on one line. Two do not contribute, the one for
want of an address and the other for its empty code, and one has an address that is no
numeral. -/
def crowdedStatements : List Statement :=
  [{ line := 9, label := none, mnemonic := .directive .finish, operand := none
     address := some "2A" },
   { line := 3, label := none, mnemonic := .directive .word, operand := none
     address := some "0b", code := some "1F" },
   { line := 7, label := none, mnemonic := .directive .reserveWords, operand := none
     address := some "c", code := some "12345678" },
   { line := 3, label := some "A", mnemonic := .unknown "X", operand := none
     address := some "?", code := some "abc" },
   { line := 4, label := none, mnemonic := .directive .word, operand := none
     code := some "2" },
   { line := 5, label := none, mnemonic := .directive .word, operand := none
     address := some "-", code := some "" },
   { line := 1, label := none, mnemonic := .directive .start, operand := none
     address := some "A" }]

/-- The same statements in the order of their lines. -/
def crowdedInOrder : List Statement :=
  [6, 1, 3, 4, 5, 2, 0].filterMap (crowdedStatements[·]?)

/-- What is built of them, two codes to a record. -/
def crowdedProgram : ObjectProgram :=
  { header := { name := "PROG", start := "00000A", length := "000020" }
    text := [{ address := "00000b", codes := ["00001F", "000abc"] },
      { address := "00000c", codes := ["12345678"] }]
    entry := "00000b" }

/-- The three codes make two records of two or one of three. Records of one are not to be
had, since then the second has the address that cannot be read. -/
theorem text_cuts_up_codes_crowded :
    build { recordCapacity := 2 } crowdedStatements = .ok crowdedProgram
      ∧ (∃ sorted, InLineOrder crowdedStatements sorted
        ∧ TextRecord.CutUp 2 (sorted.filter Statement.contributes) crowdedProgram.text)
      ∧ (∃ object, build { recordCapacity := 3 } crowdedStatements = .ok object
        ∧ object.text.length = 1 ∧ object.header = crowdedProgram.header
        ∧ object.text.flatMap TextRecord.codes = ["00001F", "000abc", "12345678"])
      ∧ build { recordCapacity := 0 } crowdedStatements
        = .error (.hex 3 "A X" (.malformed "?")) := by
  have horder : ordered crowdedStatements = crowdedInOrder :=
    (inLineOrder_ordered crowdedStatements).unique (by decide +kernel)
  have hbuild : build { recordCapacity := 2 } crowdedStatements = .ok crowdedProgram := by
    rw [build, horder]
    decide +kernel
  have hother : (build { recordCapacity := 3 } crowdedStatements).toOption.map
      (·.text.length) = some 1 := by
    rw [build, horder]
    decide +kernel
  obtain ⟨object, hobject, hlength⟩ := Option.map_eq_some_iff.mp hother
  have hobject := eq_ok_of_toOption hobject
  obtain ⟨hheader, -, hcodes⟩ := text_cuts_up_codes.2 _ 3 _ _ _ hbuild hobject
  refine ⟨hbuild, text_cuts_up_codes.1 _ _ _ hbuild,
    ⟨object, hobject, hlength, hheader, hcodes⟩, ?_⟩
  rw [build, horder]
  decide +kernel

end ObjectProgram

end TwoPass
