import TwoPass.Assembly
import TwoPass.Proofs.AddressOrder
import TwoPass.Proofs.LineOrder
import TwoPass.Proofs.Lists

/-!
# What an assembly is made of

An assembly that succeeds has gone through both passes and the builder, and this
module takes it apart again. The second pass changes nothing but codes, so the
statements of an assembly are those of the first pass with their codes filled in
(`SecondPass.forall₂_run`). Their lines go up, so sorting them by line does
nothing (`ObjectProgram.ordered_eq_self`). What is left of the builder is the
cutting of codes into text records, and `ObjectProgram.recordStatements` names the
statements a record is cut from.
-/

namespace TwoPass

/-! ## The first pass -/

namespace Plain

theorem Placed.line {lines : List String} {k : Nat} {s : Statement} (h : Placed lines k s) :
    s.line = k + 1 := by
  obtain ⟨t, hread, rfl⟩ := h
  exact (Statement.line_of_read hread).1

theorem Placed.code {lines : List String} {k : Nat} {s : Statement} (h : Placed lines k s) :
    s.code = none := by
  obtain ⟨t, hread, rfl⟩ := h
  exact (Statement.line_of_read hread).2.2

end Plain

namespace FirstPass

variable {lines : List String} {statements : List Statement}

/-- The statements of a program are in the order of their lines. -/
theorem pairwise_line (h : (run lines).result = .ok statements) :
    statements.Pairwise fun s t => s.line < t.line := by
  obtain ⟨-, -, hall⟩ := run_plain h
  rw [List.pairwise_iff_getElem]
  intro j k hj hk hjk
  rw [(hall j _ (List.getElem?_eq_getElem hj)).line, (hall k _ (List.getElem?_eq_getElem hk)).line]
  exact Nat.succ_lt_succ hjk

/-- A program that opens with its `START` has no other. -/
theorem isStart_of_mem_tail (h : (run lines).result = .ok statements)
    (hstart : Plain.isStart (Plain.textAt lines 0) = true) :
    ∀ s ∈ statements.tail, s.isStart = false := by
  obtain ⟨hgood, hlen, hall⟩ := run_plain h
  intro s hs
  obtain ⟨k, hk⟩ := List.mem_iff_getElem?.mp hs
  rw [List.getElem?_tail] at hk
  obtain ⟨hlt, -⟩ := List.getElem?_eq_some_iff.mp hk
  cases hs : s.isStart with
  | false => rfl
  | true =>
    rw [(hall (k + 1) s hk).isStart] at hs
    exact absurd (.inr (.inl ⟨hs, 0, Nat.succ_pos k, hstart⟩)) (hgood (k + 1) (hlen ▸ hlt))

end FirstPass

/-! ## The second pass -/

namespace Statement

/-- A statement without its code. -/
def uncoded (s : Statement) : Statement := { s with code := none }

/-- Only an operation or a constant gets a code. -/
theorem mnemonic_of_encode {s : Statement} {storage labels : SymbolTable}
    {made : ObjectCode} {code : String} (h : s.encode storage labels = .ok made)
    (hcode : made.code = some code) :
    (∃ op, s.mnemonic = .machine op) ∨ s.mnemonic = .directive .word := by
  unfold encode at h
  split at h
  · cases h
    cases hcode
  · next op hop => exact .inl ⟨op, hop⟩
  · next hword => exact .inr hword
  · cases h
    cases hcode

end Statement

namespace SecondPass

/-- The second pass fills in codes, one by one. -/
theorem forall₂_runWith {storage labels : SymbolTable} {statements : List Statement}
    (h : (runWith storage labels statements).fault = none) :
    List.Forall₂
      (fun s t => ∃ made, s.encode storage labels = .ok made ∧ t = { s with code := made.code })
      statements (runWith storage labels statements).statements := by
  induction statements with
  | nil => exact .nil
  | cons s more ih =>
    unfold runWith at h ⊢
    cases hmade : s.encode storage labels with
    | error fault =>
      simp only [hmade] at h
      cases h
    | ok made =>
      simp only [hmade] at h ⊢
      exact .cons ⟨made, hmade, rfl⟩ (ih h)

/-- **The second pass changes codes and nothing else**, and it gives codes to
operations and constants only. -/
theorem forall₂_run {statements : List Statement} (h : (run statements).fault = none) :
    List.Forall₂
      (fun s t => (∃ code, t = { s with code })
        ∧ ∀ code, t.code = some code →
          (∃ op, t.mnemonic = .machine op) ∨ t.mnemonic = .directive .word)
      statements (run statements).statements := by
  refine (forall₂_runWith h).imp ?_
  rintro s t ⟨made, hmade, rfl⟩
  exact ⟨⟨made.code, rfl⟩, fun code hcode => Statement.mnemonic_of_encode hmade hcode⟩

/-- Whatever has a code behind the pass is an operation or a constant. -/
theorem mnemonic_of_code {statements : List Statement} (h : (run statements).fault = none)
    {t : Statement} (ht : t ∈ (run statements).statements) {code : String}
    (hcode : t.code = some code) :
    (∃ op, t.mnemonic = .machine op) ∨ t.mnemonic = .directive .word := by
  obtain ⟨k, hk⟩ := List.mem_iff_getElem?.mp ht
  obtain ⟨-, -, -, hkind⟩ := exists_of_forall₂ (forall₂_run h) hk
  exact hkind code hcode

/-- Without the codes the statements are those of the first pass. -/
theorem map_uncoded {lines : List String} {placed : List Statement}
    (hplaced : (FirstPass.run lines).result = .ok placed) (h : (run placed).fault = none) :
    (run placed).statements.map Statement.uncoded = placed := by
  have hcode : ∀ s ∈ placed, s.code = none := by
    intro s hs
    obtain ⟨k, hk⟩ := List.mem_iff_getElem?.mp hs
    exact ((FirstPass.run_plain hplaced).2.2 k s hk).code
  have hsame := ((List.forall₂_and_left _ _).mpr ⟨hcode, forall₂_run h⟩).flip
  rw [← List.forall₂_eq_eq_eq, List.forall₂_map_left_iff]
  refine hsame.imp ?_
  rintro t s ⟨hnone, ⟨code, rfl⟩, -⟩
  show { s with code := none } = s
  rw [← hnone]

/-- Apart from its code a statement is that of its line. -/
theorem placed_of_getElem? {lines : List String} {placed : List Statement}
    (hplaced : (FirstPass.run lines).result = .ok placed) (h : (run placed).fault = none)
    {k : Nat} {s : Statement} (hs : (run placed).statements[k]? = some s) :
    Plain.Placed lines k s.uncoded := by
  refine (FirstPass.run_plain hplaced).2.2 k s.uncoded ?_
  rw [← map_uncoded hplaced h, List.getElem?_map, hs, Option.map_some]

/-- There is a statement for every line. -/
theorem length_statements {lines : List String} {placed : List Statement}
    (hplaced : (FirstPass.run lines).result = .ok placed) (h : (run placed).fault = none) :
    (run placed).statements.length = lines.length := by
  rw [← (FirstPass.run_plain hplaced).2.1, ← (forall₂_run h).length_eq]

/-- The second pass keeps the order of the lines. -/
theorem pairwise_line {lines : List String} {placed : List Statement}
    (hplaced : (FirstPass.run lines).result = .ok placed) (h : (run placed).fault = none) :
    (run placed).statements.Pairwise fun s t => s.line < t.line := by
  have hline := FirstPass.pairwise_line hplaced
  rw [← map_uncoded hplaced h, List.pairwise_map] at hline
  exact hline

end SecondPass

/-! ## Groups -/

/-- **A group is a stretch of the items**, as long as the size allows. -/
theorem getElem?_groups {α : Type} {size i : Nat} {items others : List α} {first : α}
    (h : (groups size items)[i]? = some (first, others)) :
    (items.drop (i * max 1 size)).take (max 1 size) = first :: others := by
  have hsize : 0 < max 1 size := Nat.lt_of_lt_of_le Nat.one_pos (Nat.le_max_left 1 size)
  unfold groups at h
  generalize max 1 size = n at h hsize ⊢
  dsimp only at h
  rw [getElem?_filterMap, Option.bind_eq_some_iff] at h
  · obtain ⟨k, hk, h⟩ := h
    obtain ⟨hlt, rfl⟩ := List.getElem?_eq_some_iff.mp hk
    rw [List.getElem_range] at h
    split at h
    · cases h
    · next hchunk =>
      cases h
      exact hchunk
  · -- the groups are counted so that none of them is empty
    intro k hk
    have hlt : (k + 1) * n ≤ items.length + n - 1 :=
      (Nat.le_div_iff_mul_le hsize).mp (List.mem_range.mp hk)
    rw [Nat.add_mul, Nat.one_mul] at hlt
    split
    · next hnil =>
      have hlen := congrArg List.length hnil
      rw [List.length_take, List.length_drop, List.length_nil] at hlen
      omega
    · rfl

/-- **The groups hold all items**, in order. -/
theorem flatMap_groups {α : Type} (size : Nat) (items : List α) :
    ((groups size items).flatMap fun group => group.1 :: group.2) = items := by
  have hsize : 0 < max 1 size := Nat.lt_of_lt_of_le Nat.one_pos (Nat.le_max_left 1 size)
  -- a stretch that is empty makes no group, and there is nothing to lose in it
  have hgroup : ∀ (group? : Nat → Option (α × List α)) (stretch : Nat → List α),
      (∀ i, stretch i = (group? i).elim [] fun group => group.1 :: group.2) →
      ∀ indices : List Nat, ((indices.filterMap group?).flatMap fun group => group.1 :: group.2)
        = indices.flatMap stretch := by
    intro group? stretch hstretch indices
    induction indices with
    | nil => rfl
    | cons i rest ih =>
      rw [List.flatMap_cons, ← ih, hstretch]
      cases hi : group? i with
      | none => rw [List.filterMap_cons_none hi, Option.elim_none, List.nil_append]
      | some group => rw [List.filterMap_cons_some hi, List.flatMap_cons, Option.elim_some]
  refine (hgroup _ (fun i => (items.drop (i * max 1 size)).take (max 1 size)) ?_ _).trans ?_
  · intro i
    cases (items.drop (i * max 1 size)).take (max 1 size) <;> rfl
  · rw [flatMap_range_stretch, List.take_of_length_le]
    have hcount := Nat.lt_div_mul_add hsize (a := items.length + max 1 size - 1)
    omega

/-! ## The builder -/

namespace ObjectProgram

/-- **The statements that contribute to the text records.** -/
def contributors (statements : List Statement) : List Statement :=
  statements.filter (·.cell?.isSome)

/-- **The statements a text record is cut from**, given the number of the
record. -/
def recordStatements (settings : Settings) (statements : List Statement) (i : Nat) :
    List Statement :=
  ((contributors statements).drop (i * max 1 settings.recordCapacity)).take
    (max 1 settings.recordCapacity)

end ObjectProgram

/-- What a cell says about its statement. -/
theorem Statement.cell?_eq_some {s : Statement} {cell : Cell} (h : s.cell? = some cell) :
    cell.statement = s ∧ s.address = some cell.address ∧ s.code = some cell.code
      ∧ s.mnemonic.isControl = false := by
  unfold cell? at h
  split at h
  · cases h
  · next hcontrol =>
    split at h
    · next haddress hcode =>
      split at h
      · cases h
      · cases h
        exact ⟨rfl, haddress, hcode, by simpa using hcontrol⟩
    · cases h

namespace ObjectProgram

/-- Cells and contributing statements are the same thing. -/
theorem map_statement_cells (statements : List Statement) :
    (statements.filterMap Statement.cell?).map Cell.statement = contributors statements := by
  unfold contributors
  induction statements with
  | nil => rfl
  | cons s more ih =>
    cases hcell : s.cell? with
    | none =>
      rw [List.filterMap_cons_none hcell, List.filter_cons_of_neg (by simp [hcell]), ih]
    | some cell =>
      rw [List.filterMap_cons_some hcell, List.filter_cons_of_pos (by simp [hcell]),
        List.map_cons, (Statement.cell?_eq_some hcell).1, ih]

/-- A cell is the cell of its statement. -/
theorem cell?_of_mem {statements : List Statement} {cell : Cell}
    (h : cell ∈ statements.filterMap Statement.cell?) : cell.statement.cell? = some cell := by
  obtain ⟨s, -, hs⟩ := List.mem_filterMap.mp h
  rw [(Statement.cell?_eq_some hs).1, hs]

end ObjectProgram

/-- **A text record is cut from some statements**: it lies where the first of
them does, and its codes are theirs, in order. -/
structure TextRecord.CutFrom (r : TextRecord) (built : List Statement) : Prop where
  /-- The address is that of the first statement. -/
  address : ∃ first address, built.head? = some first ∧ first.address = some address
    ∧ first.padded address = .ok r.address
  /-- The codes are those of the statements. -/
  codes : List.Forall₂ (fun s code => ∃ own, s.code = some own ∧ s.padded own = .ok code)
    built r.codes

/-- What a text record is made of. -/
theorem TextRecord.ofCells_eq_ok {first : Cell} {others : List Cell} {r : TextRecord}
    (h : ofCells first others = .ok r) :
    List.Forall₂ (fun cell code => cell.statement.padded cell.code = .ok code)
        (first :: others) r.codes
      ∧ first.statement.padded first.address = .ok r.address := by
  unfold ofCells at h
  obtain ⟨codes, hcodes, h⟩ := bind_eq_ok h
  obtain ⟨address, haddress, h⟩ := bind_eq_ok h
  cases h
  exact ⟨forall₂_of_mapM hcodes, haddress⟩

namespace ObjectProgram

/-- Every text record is cut from its statements. -/
theorem cutFrom_of_buildText {settings : Settings} {statements : List Statement}
    {text : List TextRecord} (h : buildText settings statements = .ok text) {i : Nat}
    {r : TextRecord} (hr : text[i]? = some r) :
    r.CutFrom (recordStatements settings statements i) := by
  obtain ⟨⟨first, others⟩, hgroup, hmade⟩ := exists_of_forall₂ (forall₂_of_mapM h) hr
  have hchunk := getElem?_groups hgroup
  have hbuilt : recordStatements settings statements i = (first :: others).map Cell.statement := by
    rw [recordStatements, ← map_statement_cells, ← List.map_drop, ← List.map_take, hchunk]
  have hcell : ∀ cell ∈ first :: others, cell.statement.cell? = some cell := fun cell hmem =>
    cell?_of_mem (List.mem_of_mem_drop (List.mem_of_mem_take (hchunk ▸ hmem)))
  obtain ⟨hcodes, haddress⟩ := TextRecord.ofCells_eq_ok hmade
  rw [hbuilt]
  refine ⟨⟨first.statement, first.address, rfl, ?_, haddress⟩, ?_⟩
  · exact (Statement.cell?_eq_some (hcell first List.mem_cons_self)).2.1
  · rw [List.forall₂_map_left_iff]
    refine ((List.forall₂_and_left _ _).mpr ⟨hcell, hcodes⟩).imp ?_
    rintro cell code ⟨hown, hpadded⟩
    exact ⟨cell.code, (Statement.cell?_eq_some hown).2.2.1, hpadded⟩

/-- **Every contributor has its code in the text records**, once and in order, and
nothing else is in them. -/
theorem forall₂_contributors {settings : Settings} {statements : List Statement}
    {text : List TextRecord} (h : buildText settings statements = .ok text) :
    List.Forall₂ (fun s code => ∃ own, s.code = some own ∧ s.padded own = .ok code)
      (contributors statements) (text.flatMap TextRecord.codes) := by
  have hcodes : List.Forall₂ (fun cell code => cell.statement.padded cell.code = .ok code)
      (statements.filterMap Statement.cell?) (text.flatMap TextRecord.codes) := by
    rw [← flatMap_groups settings.recordCapacity (statements.filterMap Statement.cell?)]
    exact List.rel_flatMap (forall₂_of_mapM h) fun _ _ hmade => (TextRecord.ofCells_eq_ok hmade).1
  rw [← map_statement_cells, List.forall₂_map_left_iff]
  refine ((List.forall₂_and_left _ _).mpr ⟨fun _ => cell?_of_mem, hcodes⟩).imp ?_
  rintro cell code ⟨hown, hpadded⟩
  exact ⟨cell.code, (Statement.cell?_eq_some hown).2.2.1, hpadded⟩

/-- A program is entered at the first statement behind the `START` with an address. -/
theorem buildEntry_eq_ok {statements : List Statement} {entry : String}
    (h : buildEntry statements = .ok entry) :
    ∃ s ∈ statements, ∃ address, s.address = some address ∧ s.padded address = .ok entry
      ∧ ((statements.filter (!·.isStart)).findSome? fun s =>
          s.address.map fun address => (s, address)) = some (s, address) := by
  unfold buildEntry at h
  dsimp only at h
  split at h
  · next s address hentered =>
    obtain ⟨t, ht, hfound⟩ := List.exists_of_findSome?_eq_some hentered
    obtain ⟨_, haddress, hpair⟩ := Option.map_eq_some_iff.mp hfound
    cases hpair
    exact ⟨s, (List.mem_filter.mp ht).1, address, haddress, h, hentered⟩
  · cases h

/-- What is built of statements in order. -/
theorem buildInOrder_eq_ok {settings : Settings} {statements : List Statement}
    {object : ObjectProgram} (h : buildInOrder settings statements = .ok object) :
    buildHeader settings statements = .ok object.header
      ∧ buildText settings statements = .ok object.text
      ∧ buildEntry statements = .ok object.entry := by
  unfold buildInOrder at h
  split at h
  · cases h
  · split at h
    · cases h
    · obtain ⟨header, hheader, h⟩ := bind_eq_ok h
      obtain ⟨text, htext, h⟩ := bind_eq_ok h
      obtain ⟨entry, hentry, h⟩ := bind_eq_ok h
      cases h
      exact ⟨hheader, htext, hentry⟩

end ObjectProgram

/-! ## The whole -/

/-- **An assembly comes from a first pass, a second pass and the builder.** -/
theorem assemble_eq_ok {settings : Settings} {lines : List String} {assembly : Assembly}
    (h : assemble settings lines = .ok assembly) :
    ∃ placed, (FirstPass.run (Text.program lines)).result = .ok placed
      ∧ (SecondPass.run placed).fault = none
      ∧ assembly.statements = (SecondPass.run placed).statements
      ∧ ObjectProgram.build settings assembly.statements = .ok assembly.object := by
  unfold assemble Run.ofLines at h
  simp only at h
  split at h
  · cases h
  · next placed hplaced =>
    refine ⟨placed, hplaced, ?_⟩
    split at h
    · cases h
    · next hfault =>
      unfold Run.conclude at h
      simp only at h
      split at h
      · cases h
      · split at h
        · cases h
        · next object hobject =>
          cases h
          exact ⟨hfault, rfl, hobject⟩

/-- **Where nothing fails there is an assembly.** The builder may take the
statements as they come, since both passes keep them in order. -/
theorem exists_assemble_eq_ok {settings : Settings} {lines : List String}
    {placed : List Statement} {object : ObjectProgram} (hstrict : settings.strict = false)
    (hplaced : (FirstPass.run (Text.program lines)).result = .ok placed)
    (hfault : (SecondPass.run placed).fault = none)
    (hobject : ObjectProgram.buildInOrder settings (SecondPass.run placed).statements
      = .ok object) :
    ∃ assembly, assemble settings lines = .ok assembly
      ∧ assembly.statements = (SecondPass.run placed).statements
      ∧ assembly.object = object := by
  have hline := SecondPass.pairwise_line hplaced hfault
  have hbuild : ObjectProgram.build settings (SecondPass.run placed).statements = .ok object := by
    rw [ObjectProgram.build, ObjectProgram.ordered_eq_self hline, hobject]
  unfold assemble Run.ofLines Run.conclude
  simp only [hplaced, hfault, hstrict, hbuild]
  exact ⟨_, rfl, rfl, rfl⟩

end TwoPass
