import TwoPass.Proofs.Codes
import TwoPass.Proofs.LoadImage

/-!
# What the builder makes of legible statements

The builder reads every address and every code again, and it has a fault for each
of them that is no numeral. Behind the two passes these faults are dead: whatever
the passes write is `Statement.Legible`. Then the builder is left with three things
that can be wrong with a program as a whole. It can be empty, it can lack an
address where one is needed, and it can end below its start
(`ObjectProgram.buildInOrder_eq_error`).

None of them is wrong with a program that opens with its `START` and has another
line. Its statements lie one behind the other, so the end is no lower than the
start wherever the `END` is (`ObjectProgram.InSequence.exists_buildInOrder_eq_ok`).
-/

namespace TwoPass

/-! ## Legible statements -/

/-- A text as a record has it, with zeros in front. -/
def recordField (text : String) : String :=
  String.ofList (text.toList.leftpad addressDigits '0')

@[simp] theorem value_recordField (text : String) :
    Hex.value (recordField text) = Hex.value text :=
  Hex.value_leftpad text addressDigits

namespace Statement

/-- **A legible statement**: its address and its code are numerals, if it has
them. -/
structure Legible (s : Statement) : Prop where
  /-- The address is a numeral. -/
  address : ∀ address, s.address = some address → Hex.IsNumeral address
  /-- The code is a numeral. -/
  code : ∀ code, s.code = some code → Hex.IsNumeral code

/-- Numerals are padded, whatever the statement. -/
theorem padded_eq_ok (s : Statement) {text : String} (h : Hex.IsNumeral text) :
    s.padded text = .ok (recordField text) := by
  rw [padded, Hex.padLeft_eq_ok_iff.mpr ⟨h, rfl⟩]
  rfl

/-- Exactly the numerals are padded. -/
theorem padded_eq_ok_iff {s : Statement} {text field : String} :
    s.padded text = .ok field ↔ Hex.IsNumeral text ∧ field = recordField text := by
  constructor
  · exact fun h => Hex.padLeft_eq_ok_iff.mp (mapError_eq_ok h)
  · rintro ⟨hnumeral, rfl⟩
    exact s.padded_eq_ok hnumeral

/-- Padding keeps the value. -/
theorem value_of_padded {s : Statement} {text field : String} (h : s.padded text = .ok field) :
    Hex.value field = Hex.value text := by
  obtain ⟨-, rfl⟩ := padded_eq_ok_iff.mp h
  exact value_recordField text

/-- The cell of a legible statement holds numerals. -/
theorem Legible.cell {s : Statement} (h : s.Legible) {cell : Cell} (hcell : s.cell? = some cell) :
    Hex.IsNumeral cell.address ∧ Hex.IsNumeral cell.code := by
  obtain ⟨-, haddress, hcode, -⟩ := cell?_eq_some hcell
  exact ⟨h.address _ haddress, h.code _ hcode⟩

end Statement

/-- Both passes leave addresses of the machine behind. -/
theorem SecondPass.address_of_mem {lines : List String} {placed : List Statement}
    (hplaced : (FirstPass.run lines).result = .ok placed) (hfault : (run placed).fault = none)
    {s : Statement} (hs : s ∈ (run placed).statements) {address : String}
    (haddress : s.address = some address) : ∃ v ≤ maxAddress, address = Hex.render v := by
  have hmem : s.uncoded ∈ placed := by
    rw [← map_uncoded hplaced hfault]
    exact List.mem_map_of_mem hs
  exact FirstPass.address_of_mem hplaced hmem haddress

/-- **Both passes leave legible statements behind.** -/
theorem SecondPass.legible {lines : List String} {placed : List Statement}
    (hplaced : (FirstPass.run lines).result = .ok placed) (hfault : (run placed).fault = none) :
    ∀ s ∈ (run placed).statements, s.Legible := by
  intro s hs
  refine ⟨fun address haddress => ?_, fun code hcode => isNumeral_code hplaced hfault hs hcode⟩
  obtain ⟨v, hv, hspelt⟩ := address_of_mem hplaced hfault hs haddress
  exact (Hex.isNumeral_of_address hv hspelt).1

/-- **A program that opens with its `START` has an address for it.** -/
theorem SecondPass.exists_start {lines : List String} {placed : List Statement}
    (hplaced : (FirstPass.run lines).result = .ok placed) (hfault : (run placed).fault = none)
    (hstart : Plain.isStart (Plain.textAt lines 0) = true) :
    ∃ first more start, (run placed).statements = first :: more
      ∧ first.isStart = true ∧ first.address = some start := by
  cases hstatements : (run placed).statements with
  | nil =>
    have hlen := (FirstPass.run_plain hplaced).2.1
    rw [← map_uncoded hplaced hfault, hstatements] at hlen
    rw [List.length_eq_zero_iff.mp hlen.symm] at hstart
    exact absurd hstart (by decide +kernel)
  | cons first more =>
    have hat : Plain.Placed lines 0 first.uncoded :=
      placed_of_getElem? hplaced hfault (by rw [hstatements]; rfl)
    have hlocation := hat.location?
    rw [Plain.address, if_pos hstart] at hlocation
    obtain ⟨start, haddress, -⟩ := Option.map_eq_some_iff.mp hlocation
    exact ⟨first, more, start, rfl, hat.isStart.trans hstart, haddress⟩

namespace ObjectProgram

variable {settings : Settings} {statements : List Statement}

/-! ## The header -/

/-- **The ends of a program**: the statements it reaches from and to, which have
addresses. -/
structure Ends (statements : List Statement) (first last : Statement) (start stop : String) :
    Prop where
  /-- The program begins at the first statement. -/
  begins : first? statements = some first
  /-- It ends at the last. -/
  finishes : last? statements = some last
  /-- The first has an address. -/
  start : first.address = some start
  /-- The last has an address. -/
  stop : last.address = some stop

theorem mem_of_first? {s : Statement} (h : first? statements = some s) : s ∈ statements := by
  rcases Option.or_eq_some_iff.mp h with h | ⟨-, h⟩
  · exact List.mem_of_find?_eq_some h
  · exact List.mem_of_find?_eq_some h

theorem mem_of_last? {s : Statement} (h : last? statements = some s) : s ∈ statements := by
  rcases Option.or_eq_some_iff.mp h with h | ⟨-, h⟩
  · exact List.mem_reverse.mp (List.mem_of_find?_eq_some h)
  · exact List.mem_reverse.mp (List.mem_of_find?_eq_some h)

/-- A program without ends has no header. -/
theorem buildHeader_of_not_ends
    (h : ¬ ∃ first last start stop, Ends statements first last start stop) :
    buildHeader settings statements = .error .missingAddress := by
  unfold buildHeader
  split
  · next first last hfirst hlast =>
    split
    · next start stop hstart hstop =>
      exact absurd ⟨first, last, start, stop, hfirst, hlast, hstart, hstop⟩ h
    · rfl
  · rfl

/-- **The header reaches from one end of the program to the other**, if the other
end is no lower. -/
theorem Ends.buildHeader_eq {first last : Statement} {start stop : String}
    (h : Ends statements first last start stop) (hlegible : ∀ s ∈ statements, s.Legible)
    (settings : Settings) :
    buildHeader settings statements
      = if Hex.value start ≤ Hex.value stop then
          .ok { name := programName settings first
                start := recordField start
                length := recordField (Hex.render (Hex.value stop - Hex.value start)) }
        else .error (.hex last.line last.source (.negative stop start)) := by
  have hstart := (hlegible first (mem_of_first? h.begins)).address start h.start
  have hstop := (hlegible last (mem_of_last? h.finishes)).address stop h.stop
  have hlength : Hex.IsNumeral (Hex.render (Hex.value stop - Hex.value start)) := by
    have hbound := hstop.2.2
    exact (Hex.isNumeral_render _).mpr (by omega)
  unfold buildHeader
  simp only [h.begins, h.finishes, h.start, h.stop, Hex.sub_eq hstop hstart]
  split
  · rw [first.padded_eq_ok hstart]
    show (last.padded (Hex.render _) >>= fun length => _) = _
    rw [last.padded_eq_ok hlength]
    rfl
  · rfl

/-- **A header that was built** tells of two ends, and the other end is no lower. -/
theorem exists_ends_of_buildHeader {header : Header} (hlegible : ∀ s ∈ statements, s.Legible)
    (h : buildHeader settings statements = .ok header) :
    ∃ first last start stop, Ends statements first last start stop
      ∧ Hex.value start ≤ Hex.value stop
      ∧ header = { name := programName settings first
                   start := recordField start
                   length := recordField (Hex.render (Hex.value stop - Hex.value start)) } := by
  by_cases hends : ∃ first last start stop, Ends statements first last start stop
  · obtain ⟨first, last, start, stop, hends⟩ := hends
    rw [hends.buildHeader_eq hlegible] at h
    split at h
    · next hle => exact ⟨first, last, start, stop, hends, hle, (Except.ok.inj h).symm⟩
    · cases h
  · rw [buildHeader_of_not_ends hends] at h
    cases h

/-- The values in a header: where the program begins, and how far its end is from
there. -/
theorem Ends.value_header {first last : Statement} {start stop : String} {header : Header}
    (h : Ends statements first last start stop) (hlegible : ∀ s ∈ statements, s.Legible)
    (hheader : buildHeader settings statements = .ok header) :
    Hex.value header.start = Hex.value start
      ∧ Hex.value header.start + Hex.value header.length = Hex.value stop := by
  rw [h.buildHeader_eq hlegible] at hheader
  split at hheader
  · next hle =>
    cases hheader
    rw [value_recordField, value_recordField, Hex.value_render, Nat.add_sub_cancel' hle]
    exact ⟨rfl, rfl⟩
  · cases hheader

/-! ## The text records -/

/-- **Text records can be built of legible statements**, under any settings. -/
theorem exists_buildText_eq_ok (settings : Settings) (hlegible : ∀ s ∈ statements, s.Legible) :
    ∃ text, buildText settings statements = .ok text := by
  refine exists_mapM_eq_ok ?_
  rintro ⟨first, others⟩ hgroup
  obtain ⟨i, hi⟩ := List.mem_iff_getElem?.mp hgroup
  have hcell : ∀ cell ∈ first :: others, Hex.IsNumeral cell.address ∧ Hex.IsNumeral cell.code := by
    intro cell hmem
    rw [← getElem?_groups hi] at hmem
    obtain ⟨s, hs, hown⟩ :=
      List.mem_filterMap.mp (List.mem_of_mem_drop (List.mem_of_mem_take hmem))
    exact (hlegible s hs).cell hown
  obtain ⟨codes, hcodes⟩ : ∃ codes,
      (first :: others).mapM (fun cell => cell.statement.padded cell.code) = .ok codes :=
    exists_mapM_eq_ok fun cell hmem => ⟨_, cell.statement.padded_eq_ok (hcell cell hmem).2⟩
  refine ⟨{ address := recordField first.address, codes }, ?_⟩
  show TextRecord.ofCells first others = _
  rw [TextRecord.ofCells, hcodes,
    first.statement.padded_eq_ok (hcell first List.mem_cons_self).1]
  rfl

/-! ## The entry -/

/-- Legible statements can fail to be entered only for want of an address. -/
theorem buildEntry_eq_error (hlegible : ∀ s ∈ statements, s.Legible) {fault : Fault}
    (h : buildEntry statements = .error fault) :
    fault = .missingAddress ∧ ∀ s ∈ statements, s.isStart = false → s.address = none := by
  unfold buildEntry at h
  simp only at h
  split at h
  · next s address hentered =>
    obtain ⟨t, ht, hfound⟩ := List.exists_of_findSome?_eq_some hentered
    obtain ⟨_, haddress, hpair⟩ := Option.map_eq_some_iff.mp hfound
    cases hpair
    rw [s.padded_eq_ok ((hlegible s (List.mem_filter.mp ht).1).address address haddress)] at h
    cases h
  · next hentered =>
    cases h
    refine ⟨rfl, fun s hs hstart => ?_⟩
    have hnone := List.findSome?_eq_none_iff.mp hentered s
      (List.mem_filter.mpr ⟨hs, by rw [hstart]; rfl⟩)
    exact Option.map_eq_none_iff.mp hnone

/-! ## The whole -/

/-- **What can be wrong with legible statements**: there are none, an address is
missing, or the end of the program lies below its start. -/
theorem buildInOrder_eq_error (hlegible : ∀ s ∈ statements, s.Legible) {fault : Fault}
    (h : buildInOrder settings statements = .error fault) :
    (fault = .emptyProgram ∧ statements = []) ∨ fault = .missingAddress
      ∨ ∃ first last start stop, Ends statements first last start stop
        ∧ Hex.value stop < Hex.value start
        ∧ fault = .hex last.line last.source (.negative stop start) := by
  obtain ⟨text, htext⟩ := exists_buildText_eq_ok settings hlegible
  unfold buildInOrder at h
  split at h
  · next hempty =>
    cases h
    exact .inl ⟨rfl, List.isEmpty_iff.mp hempty⟩
  · split at h
    · cases h
      exact .inr (.inl rfl)
    · by_cases hends : ∃ first last start stop, Ends statements first last start stop
      · obtain ⟨first, last, start, stop, hends⟩ := hends
        rw [hends.buildHeader_eq hlegible, htext] at h
        split at h
        · cases hentry : buildEntry statements with
          | ok entry =>
            rw [hentry] at h
            cases h
          | error cause =>
            rw [hentry] at h
            cases h
            exact .inr (.inl (buildEntry_eq_error hlegible hentry).1)
        · next hlow =>
          cases h
          exact .inr (.inr ⟨first, last, start, stop, hends, Nat.lt_of_not_le hlow, rfl⟩)
      · rw [buildHeader_of_not_ends hends] at h
        cases h
        exact .inr (.inl rfl)

/-! ## Programs that open with their `START` -/

/-- From its first address on a program in sequence lies one behind the other. -/
theorem InSequence.laid_start {first : Statement} {more : List Statement} {start : String}
    (h : InSequence (first :: more)) (hstart : first.address = some start) :
    Statement.Laid (Hex.value start) (first :: more) := by
  refine h.laid (List.nil_append _).symm ?_
  rw [Statement.location?, hstart, Option.map_some]

/-- **A program that opens with its `START` reaches from it to something no
lower.** -/
theorem InSequence.exists_ends {first : Statement} {more : List Statement} {start : String}
    (h : InSequence (first :: more)) (hfirst : first.isStart = true)
    (hstart : first.address = some start) :
    ∃ last stop, Ends (first :: more) first last start stop
      ∧ Hex.value start ≤ Hex.value stop := by
  have hbegins : first? (first :: more) = some first := by
    rw [first?, List.find?_cons_of_pos hfirst]
    rfl
  obtain ⟨last, hfinishes⟩ : ∃ last, last? (first :: more) = some last := by
    -- the first statement has an address, so the search from behind stops at it at the latest
    refine Option.ne_none_iff_exists'.mp fun hnone => ?_
    have hsome := List.find?_eq_none.mp (Option.or_eq_none_iff.mp hnone).2 first
      (List.mem_reverse.mpr List.mem_cons_self)
    rw [hstart] at hsome
    exact hsome rfl
  obtain ⟨v, hlocation, hle⟩ := (h.laid_start hstart).le (mem_of_last? hfinishes)
  obtain ⟨stop, hstop, rfl⟩ := Option.map_eq_some_iff.mp hlocation
  exact ⟨last, stop, ⟨hbegins, hfinishes, hstart, hstop⟩, hle⟩

/-- **A program that opens with its `START` and has another line makes an object
program**, under any settings. -/
theorem InSequence.exists_buildInOrder_eq_ok {first second : Statement} {more : List Statement}
    {start : String} (settings : Settings) (h : InSequence (first :: second :: more))
    (hlegible : ∀ s ∈ first :: second :: more, s.Legible) (hfirst : first.isStart = true)
    (hstart : first.address = some start) :
    ∃ object, buildInOrder settings (first :: second :: more) = .ok object := by
  obtain ⟨last, stop, hends, hle⟩ := h.exists_ends hfirst hstart
  obtain ⟨header, hheader⟩ : ∃ header,
      buildHeader settings (first :: second :: more) = .ok header :=
    ⟨_, (hends.buildHeader_eq hlegible settings).trans (if_pos hle)⟩
  obtain ⟨text, htext⟩ := exists_buildText_eq_ok settings hlegible
  obtain ⟨entry, hentry⟩ : ∃ entry, buildEntry (first :: second :: more) = .ok entry := by
    cases hentry : buildEntry (first :: second :: more) with
    | ok entry => exact ⟨entry, rfl⟩
    | error fault =>
      -- the second statement has an address, as it follows the first
      have hsecond : second ∈ first :: second :: more :=
        List.mem_cons_of_mem first List.mem_cons_self
      have hnone := (buildEntry_eq_error hlegible hentry).2 second hsecond
        (h.start second List.mem_cons_self)
      obtain ⟨b, hb, -⟩ := (List.isChain_cons_cons.mp h.follows).1
      rw [Statement.location?, hnone] at hb
      cases hb
  refine ⟨⟨header, text, entry⟩, ?_⟩
  rw [buildInOrder, if_neg (by simp), if_neg (by simp [hstart]), hheader, htext, hentry]
  rfl

end ObjectProgram

end TwoPass
