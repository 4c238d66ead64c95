import TwoPass.Proofs.HeaderValues
import TwoPass.Proofs.SourceText
import TwoPass.Proofs.Strictness

/-!
# Faults and the lines they point at

A fault that ends an assembly names a line and quotes it. It can be raised in three places:
by the first pass, which has the line before it and quotes it as it is; by the second pass,
which has the statement and writes it out again; and by the builder, which looks for the two
ends of the program among all statements. Whoever makes an editor jump to the line relies on
all of them meaning the same lines: those before the first empty one, without their line ends.

`Plain.HexBlame` says what a fault of hexadecimal arithmetic can be about. There are many places
that could raise one, but behind the first pass every address and every code is a numeral, so
that two causes are left. A `START` or a constant has an operand that is no numeral. Or the
last `END` stands before the `START`, and at a lower address. In every other program the end
is no lower than the beginning, because addresses go up from the `START` on
(`Plain.exists_address_ge`).
-/

namespace TwoPass

/-! ## Where an assembly fails -/

/-- **A fault comes from the first pass, from the second, from strict settings or from the
builder.** -/
theorem assemble_eq_error {settings : Settings} {lines : List String} {fault : Fault}
    (h : assemble settings lines = .error fault) :
    (FirstPass.run (Text.program lines)).result = .error fault
      ∨ ∃ placed, (FirstPass.run (Text.program lines)).result = .ok placed
        ∧ ((SecondPass.run placed).fault = some fault
          ∨ (SecondPass.run placed).fault = none
            ∧ ((∃ n, fault = .unresolved n)
              ∨ ObjectProgram.buildInOrder settings (SecondPass.run placed).statements
                = .error fault)) := by
  cases hplaced : (FirstPass.run (Text.program lines)).result with
  | error cause =>
    rw [assemble_of_refused hplaced] at h
    cases h
    exact .inl rfl
  | ok placed =>
    refine .inr ⟨placed, rfl, ?_⟩
    cases hfault : (SecondPass.run placed).fault with
    | some cause =>
      rw [assemble_of_fault hplaced hfault] at h
      cases h
      exact .inl rfl
    | none =>
      refine .inr ⟨rfl, ?_⟩
      rw [assemble_of_passes hplaced hfault] at h
      split at h
      · cases h
        exact .inl ⟨_, rfl⟩
      · rw [← ObjectProgram.build_eq_buildInOrder hplaced hfault]
        exact .inr (eq_error_of_map h)

namespace Plain

variable {lines : List String}

/-! ## Statements and their lines -/

/-- A statement has the fields of its line. -/
theorem Placed.fields {k : Nat} {s : Statement} (h : Placed lines k s) :
    s.fields = Text.fields (textAt lines k) := by
  obtain ⟨t, hread, rfl⟩ := h
  show t.fields = _
  exact Statement.fields_of_read hread

/-- The address of a statement is spelt out of that of its line. -/
theorem Placed.exists_address {k : Nat} {s : Statement} {text : String} (h : Placed lines k s)
    (htext : s.address = some text) : ∃ a, address lines k = some a ∧ Hex.render a = text := by
  obtain ⟨t, -, rfl⟩ := h
  exact Option.map_eq_some_iff.mp htext

/-- **Addresses go up as long as there is no `START`.** -/
theorem exists_address_ge {j k a : Nat} (hjk : j ≤ k) (ha : address lines j = some a)
    (hnone : ∀ i, j < i → i ≤ k → isStart (textAt lines i) = false) :
    ∃ b, address lines k = some b ∧ a ≤ b := by
  induction k, hjk using Nat.le_induction with
  | base => exact ⟨a, ha, le_rfl⟩
  | succ k hjk ih =>
    obtain ⟨b, hb, hle⟩ := ih fun i hi hik => hnone i hi (Nat.le_succ_of_le hik)
    refine ⟨b + size (textAt lines k), ?_, Nat.le_add_right_of_le hle⟩
    rw [address_eq, hnone (k + 1) (Nat.lt_succ_of_le hjk) le_rfl, reached, hb]
    rfl

/-! ## Faults of hexadecimal arithmetic -/

/-- **What a line can be blamed for in hexadecimal**: its own operand, or being the end of a
program that lies below its beginning. -/
inductive HexBlame (lines : List String) (k : Nat) : HexFault → Prop where
  /-- The line is a `START` or a constant, and its operand is no numeral. -/
  | operand {mnemonic operand : String}
      (parts : parts? (textAt lines k) = some (mnemonic, some operand))
      (takes : mnemonic = "START" ∨ mnemonic = "WORD") (bad : ¬ Hex.IsNumeral operand) :
      HexBlame lines k (.malformed operand)
  /-- The line is the last `END`, and its address is lower than that of the `START`, which
  stands behind it. -/
  | length {j a b : Nat} (isEnd : isEnd (textAt lines k) = true)
      (last : ∀ i, k < i → i < lines.length → Plain.isEnd (textAt lines i) = false)
      (isStart : isStart (textAt lines j) = true) (behind : k < j)
      (stop : address lines k = some a) (start : address lines j = some b) (low : a < b) :
      HexBlame lines k (.negative (Hex.render a) (Hex.render b))

/-- **A fault points at a line**: it names the line, counted from one, it quotes it, up to the
blanks between fields, and what it says of it and of other lines is so. -/
structure PointsAt (lines : List String) (k : Nat) (fault : Fault) : Prop where
  /-- The line is one of the program. -/
  inside : k < lines.length
  /-- The fault names the line. -/
  names : fault.line? = some (k + 1)
  /-- The fault quotes the line. -/
  quotes : ∃ content, fault.content? = some content
    ∧ Text.fields content = Text.fields (textAt lines k)
  /-- The first `START` is an earlier line. -/
  first : ∀ line content first, fault = .duplicateStart line content first →
    ∃ j < k, first = j + 1 ∧ isStart (textAt lines j) = true
  /-- The hexadecimal that cannot be used is in the line. -/
  hex : ∀ cause, fault.cause? = some cause → HexBlame lines k cause

/-- The parts of a line that is a `START`. -/
theorem parts?_of_isStart {text operand : String} (hstart : isStart text = true)
    (hoperand : operand? text = some operand) : parts? text = some ("START", some operand) := by
  unfold isStart at hstart
  unfold operand? at hoperand
  obtain ⟨⟨mnemonic, own⟩, hparts, rfl⟩ := Option.bind_eq_some_iff.mp hoperand
  rw [hparts, Option.any_some, decide_eq_true_eq] at hstart
  rw [hparts, ← hstart]

/-- The parts of a line that is a constant. -/
theorem parts?_of_constant? {text number : String} (h : constant? text = some number) :
    parts? text = some ("WORD", some number) := by
  obtain ⟨⟨mnemonic, own⟩, hparts, hown⟩ := Option.bind_eq_some_iff.mp h
  split at hown
  · next hword =>
    rw [hparts, ← hword]
    exact congrArg (fun operand => some (mnemonic, operand)) hown
  · cases hown

/-- **The first pass points at the line it refuses.** -/
theorem Blames.pointsAt {k : Nat} {fault : Fault} (hk : k < lines.length)
    (h : Blames lines k fault) : PointsAt lines k fault := by
  refine ⟨hk, h.violates.2, ?_, ?_, ?_⟩
  · cases fault with
    | fieldCount | duplicateStart | hex | addressOverflow =>
      obtain ⟨-, rfl, -⟩ := h
      exact ⟨_, rfl, rfl⟩
    | emptyProgram | missingAddress | unresolved => exact h.elim
  · rintro line content first rfl
    exact h.2.2.2.2
  · intro cause hcause
    cases fault with
    | hex line content own =>
      cases hcause
      obtain ⟨-, -, -, -, ⟨hstart, operand, hoperand, hbad⟩, own, hown, rfl⟩ := h
      cases hown.symm.trans hoperand
      exact .operand (parts?_of_isStart hstart hoperand) (.inl rfl) hbad
    | _ => cases hcause

/-- A fault in the hexadecimal of a statement points at its line. -/
theorem Placed.pointsAt {k : Nat} {s : Statement} {cause : HexFault} (hk : k < lines.length)
    (h : Placed lines k s) (hblame : HexBlame lines k cause) :
    PointsAt lines k (.hex s.line s.source cause) where
  inside := hk
  names := congrArg some h.line
  quotes := ⟨s.source, rfl, Statement.fields_source h.fields⟩
  first := fun _ _ _ heq => nomatch heq
  hex := by
    rintro _ ⟨⟩
    exact hblame

end Plain

/-! ## The ends of a program -/

/-- **The statement a program begins at** is a `START` or, for want of one, a statement before
which none has an address. -/
theorem ObjectProgram.exists_split_of_first? {statements : List Statement} {first : Statement}
    (h : first? statements = some first) :
    ∃ before behind, statements = before ++ first :: behind
      ∧ (first.isStart = true
        ∨ (∀ s ∈ statements, s.isStart = false) ∧ ∀ s ∈ before, s.address = none) := by
  rcases Option.or_eq_some_iff.mp h with hstart | ⟨hnone, hsome⟩
  · obtain ⟨hisStart, before, behind, hsplit, -⟩ := List.find?_eq_some_iff_append.mp hstart
    exact ⟨before, behind, hsplit, .inl hisStart⟩
  · obtain ⟨-, before, behind, hsplit, hpassed⟩ := List.find?_eq_some_iff_append.mp hsome
    refine ⟨before, behind, hsplit, .inr ⟨fun s hs => ?_, fun s hs => ?_⟩⟩
    · exact Bool.eq_false_iff.mpr (List.find?_eq_none.mp hnone s hs)
    · simpa using hpassed s hs

namespace SecondPass

variable {lines : List String} {placed : List Statement}

/-- No `START` stands behind the beginning of a program. -/
theorem isStart_behind (hplaced : (FirstPass.run lines).result = .ok placed)
    (hfault : (run placed).fault = none) {j : Nat} {first : Statement}
    (hj : (run placed).statements[j]? = some first)
    (hfirst : first.isStart = true ∨ ∀ s ∈ (run placed).statements, s.isStart = false) :
    ∀ i, j < i → i < lines.length → Plain.isStart (Plain.textAt lines i) = false := by
  intro i hji hi
  have hlen := length_statements hplaced hfault
  have hat := placed_of_getElem? hplaced hfault (List.getElem?_eq_getElem (hlen ▸ hi))
  rcases hfirst with hstart | hnone
  · have hopen := (placed_of_getElem? hplaced hfault hj).isStart.symm.trans hstart
    refine Bool.eq_false_iff.mpr fun hsecond => ?_
    exact (FirstPass.run_plain hplaced).1 i hi (.inr (.inl ⟨hsecond, j, hji, hopen⟩))
  · exact hat.isStart.symm.trans (hnone (run placed).statements[i] (List.getElem_mem _))

/-- **What lies below the beginning of a program stands before it**: from there on addresses go
up. -/
theorem lt_of_address_lt (hplaced : (FirstPass.run lines).result = .ok placed)
    (hfault : (run placed).fault = none) {j k a b : Nat} {first : Statement}
    (hj : (run placed).statements[j]? = some first)
    (hfirst : first.isStart = true ∨ ∀ s ∈ (run placed).statements, s.isStart = false)
    (hk : k < lines.length) (ha : Plain.address lines k = some a)
    (hb : Plain.address lines j = some b) (hlow : a < b) : k < j := by
  by_contra hle
  have hsingle := isStart_behind hplaced hfault hj hfirst
  obtain ⟨c, hc, hbc⟩ := Plain.exists_address_ge (Nat.le_of_not_lt hle) hb
    fun i hi hik => hsingle i hi (hik.trans_lt hk)
  rw [ha] at hc
  cases hc
  exact absurd hlow (Nat.not_lt_of_le hbc)

/-- **A program ends below its beginning only if its last `END` stands before its `START`.** -/
theorem exists_hexBlame_of_ends (hplaced : (FirstPass.run lines).result = .ok placed)
    (hfault : (run placed).fault = none) {first last : Statement} {start stop : String}
    (hends : ObjectProgram.Ends (run placed).statements first last start stop)
    (hlow : Hex.value stop < Hex.value start) :
    ∃ k < lines.length, Plain.Placed lines k last.uncoded
      ∧ Plain.HexBlame lines k (.negative stop start) := by
  have hlen := length_statements hplaced hfault
  obtain ⟨front, rest, hfront, hfirst⟩ := ObjectProgram.exists_split_of_first? hends.begins
  obtain ⟨before, behind, hbefore, hlast⟩ := ObjectProgram.exists_split_of_last? hends.finishes
  have hj : (run placed).statements[front.length]? = some first := by
    simp [hfront]
  have hk : (run placed).statements[before.length]? = some last := by
    simp [hbefore]
  have hklt : before.length < lines.length := hlen ▸ (List.getElem?_eq_some_iff.mp hk).1
  have hatFirst := placed_of_getElem? hplaced hfault hj
  have hatLast := placed_of_getElem? hplaced hfault hk
  obtain ⟨b, hb, rfl⟩ := hatFirst.exists_address hends.start
  obtain ⟨a, ha, rfl⟩ := hatLast.exists_address hends.stop
  rw [Hex.value_render, Hex.value_render] at hlow
  have horder : before.length < front.length :=
    lt_of_address_lt hplaced hfault hj (hfirst.imp_right And.left) hklt ha hb hlow
  have hmemFront : last ∈ front := by
    rw [hfront, List.getElem?_append_left horder] at hk
    exact List.mem_of_getElem? hk
  have hmemBehind : first ∈ behind := mem_of_getElem?_append_cons horder (hbefore ▸ hj)
  -- either end was found by its directive: each would be the other's first choice otherwise
  have hstart : first.isStart = true := by
    refine hfirst.resolve_right fun ⟨_, hlacks⟩ => ?_
    exact Option.some_ne_none _ (hends.stop.symm.trans (hlacks last hmemFront))
  obtain ⟨hend, hnoEnd⟩ : last.isEnd = true ∧ (∀ s ∈ behind, s.isEnd = false) := by
    refine hlast.resolve_right fun ⟨_, hlacks⟩ => ?_
    exact Option.some_ne_none _ (hends.start.symm.trans (hlacks first hmemBehind))
  refine ⟨before.length, hklt, hatLast, .length ?_ ?_ ?_ horder ha hb hlow⟩
  · exact hatLast.isEnd.symm.trans hend
  · intro i hi hilt
    obtain ⟨s, hs⟩ : ∃ s, (run placed).statements[i]? = some s :=
      ⟨_, List.getElem?_eq_getElem (hlen.symm ▸ hilt)⟩
    have hat := placed_of_getElem? hplaced hfault hs
    rw [hbefore] at hs
    exact hat.isEnd.symm.trans (hnoEnd s (mem_of_getElem?_append_cons hi hs))
  · exact hatFirst.isStart.symm.trans hstart

/-- **The second pass points at the constant it cannot encode.** -/
theorem exists_pointsAt_of_fault (hplaced : (FirstPass.run lines).result = .ok placed)
    {fault : Fault} (hfault : (run placed).fault = some fault) :
    ∃ k, Plain.PointsAt lines k fault := by
  obtain ⟨k, s, number, hs, hconstant, hbad, -, rfl⟩ := (fault_run_iff hplaced).mp hfault
  obtain ⟨-, hlen, hall⟩ := FirstPass.run_plain hplaced
  have hk : k < lines.length := hlen ▸ (List.getElem?_eq_some_iff.mp hs).1
  have hat := hall k s hs
  refine ⟨k, hat.line ▸ hat.pointsAt hk (.operand ?_ (.inr rfl) hbad)⟩
  exact Plain.parts?_of_constant? hconstant

/-- **The builder points at the end of the program.** -/
theorem exists_pointsAt_of_build {settings : Settings}
    (hplaced : (FirstPass.run lines).result = .ok placed) (hfault : (run placed).fault = none)
    {fault : Fault} {n : Nat} (hline : fault.line? = some n)
    (h : ObjectProgram.buildInOrder settings (run placed).statements = .error fault) :
    ∃ k, Plain.PointsAt lines k fault := by
  rcases ObjectProgram.buildInOrder_eq_error (legible hplaced hfault) h with
    ⟨rfl, -⟩ | rfl | ⟨first, last, start, stop, hends, hlow, rfl⟩
  · cases hline
  · cases hline
  · obtain ⟨k, hk, hat, hblame⟩ := exists_hexBlame_of_ends hplaced hfault hends hlow
    exact ⟨k, Plain.Placed.pointsAt (s := last.uncoded) hk hat hblame⟩

end SecondPass

/-! ## Whole assemblies -/

/-- **A fault with a line points at that line of the program**, whatever the settings, and
wherever in the assembly it was raised. -/
theorem fault_points_at_its_line {settings : Settings} {lines : List String} {fault : Fault}
    {n : Nat} (h : assemble settings lines = .error fault) (hline : fault.line? = some n) :
    ∃ k, n = k + 1 ∧ Plain.PointsAt (Text.program lines) k fault := by
  suffices hpoints : ∃ k, Plain.PointsAt (Text.program lines) k fault by
    obtain ⟨k, hk⟩ := hpoints
    exact ⟨k, Option.some.inj (hline.symm.trans hk.names), hk⟩
  obtain hrefused | ⟨placed, hplaced, hfault | ⟨hfault, ⟨m, rfl⟩ | hbuild⟩⟩ :=
    assemble_eq_error h
  · obtain ⟨k, hk, -, hblames⟩ := FirstPass.run_blames hrefused
    exact ⟨k, hblames.pointsAt hk⟩
  · exact SecondPass.exists_pointsAt_of_fault hplaced hfault
  · cases hline
  · exact SecondPass.exists_pointsAt_of_build hplaced hfault hline hbuild

/-- A program whose `END` stands before its `START`, with an empty line behind both. -/
def endBeforeStart : List String :=
  ["X LDA\tX\r\n", "LDA X", "\tEND  Z\r\n", "P START 1000", "", "START"]

/-- The end is blamed, in the fields it was written with. -/
theorem fault_points_at_the_end :
    assemble {} endBeforeStart = .error (.hex 3 "END Z" (.negative "3" "1000"))
      ∧ ∃ k, 3 = k + 1
        ∧ Plain.PointsAt ["X LDA\tX", "LDA X", "\tEND  Z", "P START 1000"] k
            (.hex 3 "END Z" (.negative "3" "1000")) := by
  have hseen : (FirstPass.run (Text.program endBeforeStart)).result.toOption.map (fun placed =>
      ((SecondPass.run placed).fault,
        ObjectProgram.buildInOrder {} (SecondPass.run placed).statements))
      = some (none, .error (.hex 3 "END Z" (.negative "3" "1000"))) := by decide +kernel
  obtain ⟨placed, hplaced, hboth⟩ := Option.map_eq_some_iff.mp hseen
  obtain ⟨hfault, hbuild⟩ := Prod.mk.inj hboth
  have hplaced := eq_ok_of_toOption hplaced
  have herror : assemble {} endBeforeStart = .error (.hex 3 "END Z" (.negative "3" "1000")) := by
    rw [assemble_of_passes hplaced hfault, ObjectProgram.build_eq_buildInOrder hplaced hfault,
      hbuild]
    rfl
  exact ⟨herror, fault_points_at_its_line herror rfl⟩

end TwoPass
