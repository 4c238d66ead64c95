import TwoPass.Proofs.Building

/-!
# Faults behind the first pass

Once the first pass has accepted a program, little is left that can end its
assembly. The second pass ends at a constant that is no numeral and at nothing
else, since every address it meets is one that the first pass wrote. The builder
then meets numerals only, so all its faults are about the program as a whole, and a
program that opens with its `START` and has another line has none of them.

`later_passes_fault_iff` says all this about one program, and carries it over to
the assembly: without strictness nothing stands between the builder and the result.
-/

namespace TwoPass

namespace ObjectProgram

variable {lines : List String} {placed : List Statement}

/-- Behind both passes the statements are in order already. -/
theorem build_eq_buildInOrder (hplaced : (FirstPass.run lines).result = .ok placed)
    (hfault : (SecondPass.run placed).fault = none) (settings : Settings) :
    build settings (SecondPass.run placed).statements
      = buildInOrder settings (SecondPass.run placed).statements := by
  rw [build, ordered_eq_self (SecondPass.pairwise_line hplaced hfault)]

/-- **Behind both passes a program that opens with its `START` and has another line
makes an object program.** -/
theorem exists_buildInOrder_of_start (hplaced : (FirstPass.run lines).result = .ok placed)
    (hfault : (SecondPass.run placed).fault = none)
    (hstart : Plain.isStart (Plain.textAt lines 0) = true) (htwo : 2 ≤ lines.length)
    (settings : Settings) :
    ∃ object, buildInOrder settings (SecondPass.run placed).statements = .ok object := by
  have hsequence := SecondPass.inSequence hplaced hfault hstart
  have hlegible := SecondPass.legible hplaced hfault
  have hlen := (FirstPass.run_plain hplaced).2.1
  rw [← SecondPass.map_uncoded hplaced hfault, List.length_map] at hlen
  obtain ⟨first, more, start, hstatements, hfirst, haddress⟩ :=
    SecondPass.exists_start hplaced hfault hstart
  rw [hstatements] at hsequence hlegible hlen ⊢
  cases more with
  | nil =>
    rw [← hlen] at htwo
    exact absurd htwo (Nat.not_succ_le_self 1)
  | cons second more =>
    exact hsequence.exists_buildInOrder_eq_ok settings hlegible hfirst haddress

end ObjectProgram

/-- **What can end an assembly behind the first pass.** The second pass over an
accepted program ends exactly if a line is a constant whose number is no numeral, and
its fault quotes the first such line and the number on it. If the pass comes to its
end, then no settings make the builder stumble over a numeral: it fails only because
there are no lines, because an address is missing or because the program ends below
its start. If the program opens with its `START` and has another line, the builder
does not fail at all, and without strictness neither does the assembly. -/
theorem later_passes_fault_iff {lines : List String} {placed : List Statement}
    (hplaced : (FirstPass.run lines).result = .ok placed) :
    ((SecondPass.run placed).fault = none ↔ ∀ text ∈ lines, ¬ Plain.BadConstant text)
      ∧ (∀ fault, (SecondPass.run placed).fault = some fault
          ↔ ∃ (k : Nat) (s : Statement) (number : String), placed[k]? = some s
            ∧ Plain.constant? (Plain.textAt lines k) = some number ∧ ¬ Hex.IsNumeral number
            ∧ (∀ j < k, ¬ Plain.BadConstant (Plain.textAt lines j))
            ∧ fault = .hex (k + 1) s.source (.malformed number))
      ∧ ((SecondPass.run placed).fault = none → ∀ settings,
        (∀ fault, ObjectProgram.build settings (SecondPass.run placed).statements = .error fault →
          (fault = .emptyProgram ∧ lines = []) ∨ fault = .missingAddress
            ∨ ∃ line content stop start, fault = .hex line content (.negative stop start)
              ∧ Hex.value stop < Hex.value start)
        ∧ (Plain.isStart (Plain.textAt lines 0) = true → 2 ≤ lines.length →
          (∃ object, ObjectProgram.build settings (SecondPass.run placed).statements = .ok object)
            ∧ ∀ source, Text.program source = lines → settings.strict = false →
              ∃ assembly, assemble settings source = .ok assembly
                ∧ assembly.statements = (SecondPass.run placed).statements)) := by
  refine ⟨SecondPass.fault_run_eq_none_iff hplaced, fun fault => SecondPass.fault_run_iff hplaced,
    fun hfault settings => ?_⟩
  rw [ObjectProgram.build_eq_buildInOrder hplaced hfault]
  refine ⟨fun fault herror => ?_, fun hstart htwo => ?_⟩
  · rcases ObjectProgram.buildInOrder_eq_error (SecondPass.legible hplaced hfault) herror with
      ⟨rfl, hnone⟩ | rfl | ⟨first, last, start, stop, -, hlow, rfl⟩
    · have hlen := (FirstPass.run_plain hplaced).2.1
      rw [← SecondPass.map_uncoded hplaced hfault, hnone] at hlen
      exact .inl ⟨rfl, List.length_eq_zero_iff.mp hlen.symm⟩
    · exact .inr (.inl rfl)
    · exact .inr (.inr ⟨_, _, stop, start, rfl, hlow⟩)
  · obtain ⟨object, hobject⟩ :=
      ObjectProgram.exists_buildInOrder_of_start hplaced hfault hstart htwo settings
    refine ⟨⟨object, hobject⟩, ?_⟩
    rintro source rfl hstrict
    obtain ⟨assembly, hok, hstatements, -⟩ :=
      exists_assemble_eq_ok hstrict hplaced hfault hobject
    exact ⟨assembly, hok, hstatements⟩

/-- A program with two constants that are no numerals, behind one that is. -/
def misspeltConstants : List String :=
  ["P START FFFFF0", "A WORD 00000000005", "B WORD XYZ", "WORD 100000000", "LDA A,X"]

/-- The same program with the constants put right. -/
def mendedConstants : List String :=
  ["P START FFFFF0", "A WORD 00000000005", "B WORD ABC", "WORD FFFFFFFF", "LDA A,X"]

/-- The second pass over the first program ends at the first of the two constants,
and the second program assembles. -/
theorem later_passes_fault_at_misspelt :
    (∃ placed, (FirstPass.run misspeltConstants).result = .ok placed
        ∧ (SecondPass.run placed).fault = some (.hex 3 "B WORD XYZ" (.malformed "XYZ")))
      ∧ ∃ placed assembly, (FirstPass.run mendedConstants).result = .ok placed
        ∧ assemble { recordCapacity := 2 } mendedConstants = .ok assembly
        ∧ assembly.statements = (SecondPass.run placed).statements := by
  constructor
  · have hthird : (FirstPass.run misspeltConstants).result.toOption.bind
        (fun placed => placed[2]?.map Statement.source) = some "B WORD XYZ" := by
      decide +kernel
    obtain ⟨placed, hplaced, hsource⟩ := Option.bind_eq_some_iff.mp hthird
    obtain ⟨s, hs, hsource⟩ := Option.map_eq_some_iff.mp hsource
    have hplaced := eq_ok_of_toOption hplaced
    obtain ⟨-, hfault, -⟩ := later_passes_fault_iff hplaced
    refine ⟨placed, hplaced, (hfault _).mpr ⟨2, s, "XYZ", hs, ?_, ?_, ?_, ?_⟩⟩
    · decide +kernel
    · decide +kernel
    · decide +kernel
    · rw [hsource]
  · obtain ⟨placed, hplaced⟩ := exists_of_isOk
      (show (FirstPass.run mendedConstants).result.isOk = true by decide +kernel)
    obtain ⟨hnone, -, hbuild⟩ := later_passes_fault_iff hplaced
    have hfault := hnone.mpr (by decide +kernel)
    obtain ⟨-, hbuild⟩ := hbuild hfault { recordCapacity := 2 }
    obtain ⟨-, hassembly⟩ := hbuild (by decide +kernel) (by decide)
    obtain ⟨assembly, hok, hstatements⟩ :=
      hassembly mendedConstants (by decide +kernel) rfl
    exact ⟨placed, assembly, hplaced, hok, hstatements⟩

end TwoPass
