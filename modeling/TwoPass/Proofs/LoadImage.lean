import TwoPass.Proofs.Assembly

/-!
# Text records in memory

A loader reads a text record without a program beside it: it puts the codes one
behind the other, beginning at the address of the record. The statements they
come from need not lie so. Records are cut by the number of codes alone, so a
statement that takes memory and has no code, such as a reservation, can lie in
the middle of a record, and then every code behind it is loaded too low.

This module gives the exact condition. A stretch of statements in memory is
`Statement.Laid`, and the statements of a program that opens with its `START`
are. Of such a stretch `Statement.loads_filter_iff` picks some statements of
three bytes each, and says when these lie next to each other: exactly if nothing
that was left out between them takes memory. `text_loads_in_place_iff` is this
for the records of an assembly.
-/

namespace TwoPass

namespace Statement

/-! ## Statements one behind the other -/

/-- **Statements lie one behind the other** from an address on. -/
def Laid : Nat → List Statement → Prop
  | _, [] => True
  | a, s :: rest => s.location? = some a ∧ Laid (a + s.bytes) rest

/-- Statements that follow each other lie one behind the other as long as no
`START` comes. -/
theorem laid_of_isChain {s : Statement} {rest : List Statement} {a : Nat}
    (h : (s :: rest).IsChain Follows) (hs : s.location? = some a)
    (hstart : ∀ t ∈ rest, t.isStart = false) : Laid a (s :: rest) := by
  induction rest generalizing s a with
  | nil => exact ⟨hs, trivial⟩
  | cons t more ih =>
    obtain ⟨⟨b, hb, hstep⟩, hmore⟩ := List.isChain_cons_cons.mp h
    have hbehind := hstep (hstart t List.mem_cons_self)
    rw [hs] at hbehind
    refine ⟨hs, ih hmore ?_ fun u hu => hstart u (List.mem_cons_of_mem t hu)⟩
    rw [hb, hbehind]
    rfl

/-- Nothing lies below the address the statements begin at. -/
theorem Laid.le {l : List Statement} {a : Nat} (h : Laid a l) {s : Statement} (hs : s ∈ l) :
    ∃ b, s.location? = some b ∧ a ≤ b := by
  induction l generalizing a with
  | nil => cases hs
  | cons t rest ih =>
    rcases List.mem_cons.mp hs with rfl | hs
    · exact ⟨a, h.1, le_rfl⟩
    · obtain ⟨b, hb, hle⟩ := ih h.2 hs
      exact ⟨b, hb, by omega⟩

/-- **Statements lie three bytes apart** from an address on. -/
def Loads (a : Nat) (l : List Statement) : Prop :=
  ∀ j s, l[j]? = some s → s.location? = some (a + 3 * j)

theorem loads_cons {a : Nat} {s : Statement} {rest : List Statement} :
    Loads a (s :: rest) ↔ s.location? = some a ∧ Loads (a + 3) rest := by
  constructor
  · intro h
    refine ⟨h 0 s rfl, fun j t ht => ?_⟩
    rw [h (j + 1) t ht]
    congr 1
    omega
  · rintro ⟨hs, hrest⟩ j t ht
    cases j with
    | zero =>
      cases ht
      exact hs
    | succ j =>
      rw [hrest j t ht]
      congr 1
      omega

/-- If statements lie three bytes apart from an address on, none of them is moved
away from it. -/
theorem Loads.eq_zero {a n : Nat} {l : List Statement} (h : Loads a l) {s : Statement}
    (hs : s ∈ l) (hmoved : ∀ t ∈ l, ∃ b, t.location? = some b ∧ a + n ≤ b) : n = 0 := by
  have hlt := List.length_pos_of_mem hs
  have hfirst := h 0 _ (List.getElem?_eq_getElem hlt)
  obtain ⟨b, hb, hle⟩ := hmoved _ (List.getElem_mem hlt)
  rw [hfirst] at hb
  cases hb
  omega

/-- **When a selection lies without a gap.** Of statements one behind the other
some are selected, each of three bytes, and of these the first `n` are looked
at. They lie three bytes apart exactly if every statement that was left out and
comes before one of them takes no memory. -/
theorem loads_filter_iff {p : Statement → Bool} {l : List Statement} {a : Nat} (n : Nat)
    (hlaid : Laid a l) (hthree : ∀ s ∈ l, p s = true → s.bytes = 3)
    (hline : l.Pairwise fun s t => s.line < t.line) :
    Loads a ((l.filter p).take n) ↔
      ∀ s ∈ l, p s = false → ∀ t ∈ (l.filter p).take n, s.line < t.line → s.bytes = 0 := by
  induction l generalizing a n with
  | nil =>
    rw [List.filter_nil, List.take_nil]
    exact ⟨fun _ s hs => (nomatch hs), fun _ j s hs => nomatch hs⟩
  | cons s rest ih =>
    obtain ⟨hfirst, hrest⟩ := hlaid
    obtain ⟨hbefore, hline⟩ := List.pairwise_cons.mp hline
    have ih := fun n => ih n hrest (fun t ht => hthree t (List.mem_cons_of_mem s ht)) hline
    cases hp : p s with
    | true =>
      rw [List.filter_cons_of_pos hp]
      cases n with
      | zero =>
        rw [List.take_zero]
        exact ⟨fun _ t _ _ u hu => (nomatch hu), fun _ j t ht => nomatch ht⟩
      | succ n =>
        have ih := ih n
        rw [hthree s List.mem_cons_self hp] at ih
        rw [List.take_succ_cons, loads_cons, and_iff_right hfirst, ih]
        constructor
        · intro h t ht hpt u hu htu
          rcases List.mem_cons.mp ht with rfl | hmem
          · rw [hp] at hpt
            cases hpt
          · rcases List.mem_cons.mp hu with rfl | hu
            · exact absurd htu (Nat.lt_asymm (hbefore t hmem))
            · exact h t hmem hpt u hu htu
        · intro h t ht hpt u hu
          exact h t (List.mem_cons_of_mem s ht) hpt u (List.mem_cons_of_mem s hu)
    | false =>
      rw [List.filter_cons_of_neg (by rw [hp]; decide)]
      have ih := ih n
      -- whatever is selected comes behind `s`, so all of it is moved by the size of `s`
      have hmem : ∀ t ∈ (rest.filter p).take n, t ∈ rest := fun t ht =>
        (List.mem_filter.mp (List.mem_of_mem_take ht)).1
      constructor
      · intro h t ht hpt u hu htu
        have hzero := h.eq_zero hu fun v hv => hrest.le (hmem v hv)
        rw [hzero] at ih
        rcases List.mem_cons.mp ht with rfl | ht
        · exact hzero
        · exact ih.mp h t ht hpt u hu htu
      · intro h j t ht
        have hchosen := List.mem_of_getElem? ht
        have hzero := h s List.mem_cons_self hp t hchosen (hbefore t (hmem t hchosen))
        rw [hzero] at ih
        exact ih.mpr (fun u hu => h u (List.mem_cons_of_mem s hu)) j t ht

/-- Only `START`, `END` and reservations can be without memory. -/
theorem isControl_or_reserves_of_bytes_eq_zero {s : Statement} (h : s.bytes = 0) :
    s.mnemonic.isControl = true
      ∨ s.mnemonic = .directive .reserveWords ∨ s.mnemonic = .directive .reserveBytes := by
  unfold bytes size at h
  split at h
  · next hstart => exact .inl (by rw [hstart]; rfl)
  · next hfinish => exact .inl (by rw [hfinish]; rfl)
  · next hwords => exact .inr (.inl hwords)
  · next hbytes => exact .inr (.inr hbytes)
  · exact absurd h (by decide)

/-- Operations and constants take three bytes. -/
theorem bytes_eq_three {s : Statement}
    (h : (∃ op, s.mnemonic = .machine op) ∨ s.mnemonic = .directive .word) : s.bytes = 3 := by
  have hthree : Hex.value "3" = 3 := by decide
  unfold bytes size
  rcases h with ⟨op, hop⟩ | hword
  · rw [hop]
    exact hthree
  · rw [hword]
    exact hthree

end Statement

namespace ObjectProgram

/-! ## The statements of a record -/

/-- **Statements in sequence**, the way both passes leave those of a program that
opens with its `START`. -/
structure InSequence (statements : List Statement) : Prop where
  /-- They follow each other. -/
  follows : statements.IsChain Statement.Follows
  /-- They are in the order of their lines. -/
  line : statements.Pairwise fun s t => s.line < t.line
  /-- A `START` comes first or not at all. -/
  start : ∀ s ∈ statements.tail, s.isStart = false
  /-- What contributes to the text records takes three bytes. -/
  bytes : ∀ s ∈ statements, s.cell?.isSome = true → s.bytes = 3

/-- What lies between the ends of a stretch lies in it. -/
theorem mem_stretch {l : List Statement} (hline : l.Pairwise fun s t => s.line < t.line)
    {d n : Nat} {first last s : Statement} (hfirst : ((l.drop d).take n).head? = some first)
    (hlast : ((l.drop d).take n).getLast? = some last) (hs : s ∈ l)
    (hlow : first.line < s.line) (hhigh : s.line < last.line) : s ∈ (l.drop d).take n := by
  have hfirst := List.mem_of_mem_head? hfirst
  have hlast := List.mem_of_getLast? hlast
  rw [← List.take_append_drop d l, List.pairwise_append] at hline
  obtain ⟨-, hdrop, hbefore⟩ := hline
  rw [← List.take_append_drop n (l.drop d), List.pairwise_append] at hdrop
  obtain ⟨-, -, hbehind⟩ := hdrop
  rw [← List.take_append_drop d l, List.mem_append,
    ← List.take_append_drop n (l.drop d), List.mem_append] at hs
  rcases hs with hs | hs | hs
  · exact absurd (hbefore s hs first (List.mem_of_mem_take hfirst)) (Nat.lt_asymm hlow)
  · exact hs
  · exact absurd (hbehind last hlast s hs) (Nat.lt_asymm hhigh)

/-- Nothing in a list lies on a line behind the last one. -/
theorem line_le_of_getLast? {l : List Statement} (hline : l.Pairwise fun s t => s.line < t.line)
    {last s : Statement} (hlast : l.getLast? = some last) (hs : s ∈ l) : s.line ≤ last.line := by
  obtain ⟨others, rfl⟩ := List.getLast?_eq_some_iff.mp hlast
  obtain ⟨-, -, hbefore⟩ := List.pairwise_append.mp hline
  rcases List.mem_append.mp hs with hs | hs
  · exact Nat.le_of_lt (hbefore s hs last List.mem_cons_self)
  · rw [List.mem_singleton.mp hs]

variable {settings : Settings} {statements : List Statement} {i : Nat} {first last : Statement}

/-- From a statement with an address on, statements in sequence lie one behind
the other. -/
theorem InSequence.laid (h : InSequence statements) {before behind : List Statement}
    (hsplit : statements = before ++ first :: behind) {a : Nat}
    (ha : first.location? = some a) : Statement.Laid a (first :: behind) := by
  refine Statement.laid_of_isChain (List.IsChain.right_of_append (hsplit ▸ h.follows)) ha ?_
  intro s hs
  refine h.start s ?_
  rw [hsplit]
  cases before with
  | nil => exact hs
  | cons t more => exact List.mem_append_right more (List.mem_cons_of_mem first hs)

/-- **When the statements of a record lie without a gap**: exactly if every
statement between the first and the last of them that is not one of them takes
no memory. -/
theorem InSequence.loads_iff (h : InSequence statements) {a : Nat}
    (hfirst : (recordStatements settings statements i).head? = some first)
    (hlast : (recordStatements settings statements i).getLast? = some last)
    (ha : first.location? = some a) :
    Statement.Loads a (recordStatements settings statements i) ↔
      ∀ s ∈ statements, s ∉ recordStatements settings statements i →
        first.line < s.line → s.line < last.line → s.bytes = 0 := by
  obtain ⟨others, hbuilt⟩ := List.head?_eq_some_iff.mp hfirst
  obtain ⟨before, behind, hsplit, htake⟩ := exists_append_of_stretch hbuilt
  have hsub : ∀ s ∈ first :: behind, s ∈ statements := fun s hs =>
    hsplit ▸ List.mem_append_right before hs
  obtain ⟨-, hsuffix, hearlier⟩ := List.pairwise_append.mp (hsplit ▸ h.line)
  have hlater := (List.pairwise_cons.mp hsuffix).1
  have hiff := Statement.loads_filter_iff (max 1 settings.recordCapacity) (h.laid hsplit ha)
    (fun s hs => h.bytes s (hsub s hs)) hsuffix
  rw [htake, ← hbuilt] at hiff
  -- a contributor that is not in the record does not lie between its ends
  have hselected : ∀ s ∈ recordStatements settings statements i, s.cell?.isSome = true :=
    fun s hs => (List.mem_filter.mp (List.mem_of_mem_drop (List.mem_of_mem_take hs))).2
  refine hiff.trans ⟨fun hzero s hs hout hlow hhigh => ?_, fun hzero s hs hp t ht hst => ?_⟩
  · have hp : s.cell?.isSome = false := by
      cases hp : s.cell?.isSome with
      | false => rfl
      | true =>
        exact absurd (mem_stretch (h.line.filter _) hfirst hlast (List.mem_filter.mpr ⟨hs, hp⟩)
          hlow hhigh) hout
    have hmem : s ∈ first :: behind := by
      rw [hsplit] at hs
      rcases List.mem_append.mp hs with hs | hs
      · exact absurd (hearlier s hs first List.mem_cons_self) (Nat.lt_asymm hlow)
      · exact hs
    exact hzero s hmem hp last (List.mem_of_getLast? hlast) hhigh
  · have hout : s ∉ recordStatements settings statements i := fun hmem => by
      rw [hselected s hmem] at hp
      cases hp
    have hlow : first.line < s.line := by
      rcases List.mem_cons.mp hs with rfl | hs
      · exact absurd (hbuilt ▸ List.mem_cons_self) hout
      · exact hlater s hs
    have hsorted : (recordStatements settings statements i).Pairwise fun s t => s.line < t.line :=
      ((h.line.filter _).drop).take
    exact hzero s (hsub s hs) hout hlow
      (Nat.lt_of_lt_of_le hst (line_le_of_getLast? hsorted hlast ht))

end ObjectProgram

/-! ## Records in memory -/

namespace TextRecord

/-- **Where a loader puts a code of a record**, given its position: behind the
codes before it, two digits to a byte. -/
def loadAddress (r : TextRecord) (j : Nat) : Nat :=
  Hex.value r.address + ((r.codes.take j).map String.length).sum / 2

/-- **Every code is loaded where its statement lies.** -/
def LoadsInPlace (r : TextRecord) (built : List Statement) : Prop :=
  ∀ j s, built[j]? = some s → s.location? = some (r.loadAddress j)

variable {r : TextRecord} {built : List Statement}

/-- Codes of six digits are loaded three bytes apart. -/
theorem loadAddress_eq (hsix : ∀ code ∈ r.codes, code.length = 6) {j : Nat}
    (hj : j ≤ r.codes.length) : r.loadAddress j = Hex.value r.address + 3 * j := by
  have hlengths : (r.codes.take j).map String.length = List.replicate j 6 := by
    rw [List.eq_replicate_iff]
    refine ⟨by rw [List.length_map, List.length_take, Nat.min_eq_left hj], fun n hn => ?_⟩
    obtain ⟨code, hcode, rfl⟩ := List.mem_map.mp hn
    exact hsix code (List.mem_of_mem_take hcode)
  rw [loadAddress, hlengths, List.sum_replicate_nat]
  omega

/-- A record has the address of its first statement. -/
theorem CutFrom.location? (h : r.CutFrom built) :
    ∃ first, built.head? = some first ∧ first.location? = some (Hex.value r.address) := by
  obtain ⟨first, address, hfirst, haddress, hpadded⟩ := h.address
  obtain ⟨-, hdigits⟩ := Hex.padLeft_eq_ok_iff.mp (mapError_eq_ok hpadded)
  refine ⟨first, hfirst, ?_⟩
  rw [Statement.location?, haddress, hdigits, Hex.value_leftpad, Option.map_some]

/-- Loading a record in place is a matter of statements three bytes apart. -/
theorem CutFrom.loadsInPlace_iff (h : r.CutFrom built)
    (hsix : ∀ code ∈ r.codes, code.length = 6) :
    r.LoadsInPlace built ↔ Statement.Loads (Hex.value r.address) built := by
  have hat : ∀ {j s}, built[j]? = some s →
      r.loadAddress j = Hex.value r.address + 3 * j := fun hs => by
    obtain ⟨hj, -⟩ := List.getElem?_eq_some_iff.mp hs
    exact loadAddress_eq hsix (h.codes.length_eq ▸ Nat.le_of_lt hj)
  exact ⟨fun hload j s hs => by rw [hload j s hs, hat hs],
    fun hload j s hs => by rw [hload j s hs, hat hs]⟩

end TextRecord

/-! ## The records of an assembly -/

/-- **Both passes leave the statements of a program in sequence** if it opens with
its `START`. -/
theorem SecondPass.inSequence {lines : List String} {placed : List Statement}
    (hplaced : (FirstPass.run lines).result = .ok placed) (hfault : (run placed).fault = none)
    (hstart : Plain.isStart (Plain.textAt lines 0) = true) :
    ObjectProgram.InSequence (run placed).statements := by
  have huncoded := map_uncoded hplaced hfault
  -- places do not depend on the codes
  have hfollows := FirstPass.isChain_follows hplaced
  rw [← huncoded, List.isChain_map] at hfollows
  refine ⟨hfollows, pairwise_line hplaced hfault, ?_, ?_⟩
  · intro s hs
    refine FirstPass.isStart_of_mem_tail hplaced hstart s.uncoded ?_
    rw [← huncoded, ← List.map_tail]
    exact List.mem_map_of_mem hs
  · intro s hs hcell
    obtain ⟨cell, hcell⟩ := Option.isSome_iff_exists.mp hcell
    obtain ⟨-, -, hcode, -⟩ := Statement.cell?_eq_some hcell
    exact Statement.bytes_eq_three (mnemonic_of_code hfault hs hcode)

/-- **The statements of an assembly are in sequence** if the program opens with
its `START`, and the text records are built of them. -/
theorem inSequence_of_assemble {settings : Settings} {lines : List String} {assembly : Assembly}
    (h : assemble settings lines = .ok assembly)
    (hstart : Plain.isStart (Plain.textAt (Text.program lines) 0) = true) :
    (FirstPass.run (Text.program lines)).result
        = .ok (assembly.statements.map Statement.uncoded)
      ∧ ObjectProgram.InSequence assembly.statements
      ∧ ObjectProgram.buildText settings assembly.statements = .ok assembly.object.text := by
  obtain ⟨placed, hplaced, hfault, hstatements, hobject⟩ := assemble_eq_ok h
  have hsequence := SecondPass.inSequence hplaced hfault hstart
  have huncoded := SecondPass.map_uncoded hplaced hfault
  rw [← hstatements] at hsequence huncoded
  refine ⟨huncoded ▸ hplaced, hsequence, ?_⟩
  rw [ObjectProgram.build, ObjectProgram.ordered_eq_self hsequence.line] at hobject
  exact (ObjectProgram.buildInOrder_eq_ok hobject).2.1

/-- **When text records are loaded in place.** A program opens with its `START`
and assembles, and all its codes have six digits. Its statements are those of the
first pass with the codes filled in, and every text record is cut from some of
them. A loader puts the codes of a record three bytes apart, and it puts all of
them where the first pass placed their statements exactly if every line strictly
between the first and the last of these statements that has no code in the record
takes no memory. Such a line is then an `END` or a reservation of nothing: no
reservation of memory, no unknown mnemonic and nothing that lacks its code lies
inside the record. -/
theorem text_loads_in_place_iff {settings : Settings} {lines : List String}
    {assembly : Assembly} (h : assemble settings lines = .ok assembly)
    (hstart : Plain.isStart (Plain.textAt (Text.program lines) 0) = true)
    (hsix : ∀ r ∈ assembly.object.text, ∀ code ∈ r.codes, code.length = 6) :
    (FirstPass.run (Text.program lines)).result
        = .ok (assembly.statements.map Statement.uncoded)
      ∧ ∀ i r, assembly.object.text[i]? = some r →
        ∃ built first last, built = ObjectProgram.recordStatements settings assembly.statements i
          ∧ r.CutFrom built ∧ built.head? = some first ∧ built.getLast? = some last
          ∧ (∀ j ≤ r.codes.length, r.loadAddress j = Hex.value r.address + 3 * j)
          ∧ (r.LoadsInPlace built ↔
              ∀ s ∈ assembly.statements, s ∉ built →
                first.line < s.line → s.line < last.line → s.bytes = 0)
          ∧ (r.LoadsInPlace built →
              ∀ s ∈ assembly.statements, s ∉ built →
                first.line < s.line → s.line < last.line →
                  s.mnemonic.isControl = true
                    ∨ s.bytes = 0 ∧ (s.mnemonic = .directive .reserveWords
                      ∨ s.mnemonic = .directive .reserveBytes)) := by
  obtain ⟨hplaced, hsequence, htext⟩ := inSequence_of_assemble h hstart
  refine ⟨hplaced, fun i r hr => ?_⟩
  have hsix := hsix r (List.mem_of_getElem? hr)
  have hcut := ObjectProgram.cutFrom_of_buildText htext hr
  obtain ⟨first, hfirst, hlocation⟩ := hcut.location?
  obtain ⟨last, hlast⟩ : ∃ last,
      (ObjectProgram.recordStatements settings assembly.statements i).getLast? = some last := by
    obtain ⟨others, hbuilt⟩ := List.head?_eq_some_iff.mp hfirst
    exact ⟨_, hbuilt ▸ List.getLast?_cons⟩
  have hiff := (hcut.loadsInPlace_iff hsix).trans (hsequence.loads_iff hfirst hlast hlocation)
  refine ⟨_, first, last, rfl, hcut, hfirst, hlast, fun j hj => TextRecord.loadAddress_eq hsix hj,
    hiff, fun hload s hs hout hlow hhigh => ?_⟩
  have hzero := hiff.mp hload s hs hout hlow hhigh
  rcases Statement.isControl_or_reserves_of_bytes_eq_zero hzero with hcontrol | hreserves
  · exact .inl hcontrol
  · exact .inr ⟨hzero, hreserves⟩

/-- The lines at the ends of two statements. -/
theorem ObjectProgram.line_of_ends {built : List Statement} {m n : Nat} {first last : Statement}
    (h : built.map Statement.line = [m, n]) (hfirst : built.head? = some first)
    (hlast : built.getLast? = some last) : first.line = m ∧ last.line = n := by
  have hm := congrArg List.head? h
  have hn := congrArg List.getLast? h
  rw [List.head?_map, hfirst] at hm
  rw [List.getLast?_map, hlast] at hn
  exact ⟨Option.some.inj hm, Option.some.inj hn⟩

/-- A program whose codes make two records of two. Nothing takes memory inside the
first record, and a reservation does inside the second. -/
def twoRecords : List String :=
  ["P START 1000", "LDA A", "Z RESW 0", "A WORD 5", "STA A", "B RESW 1", "LDA B", "END"]

/-- The first record of the program is loaded in place, the second is not. -/
theorem text_loads_in_place_first_of_two :
    ∃ assembly r₀ r₁, assemble { recordCapacity := 2 } twoRecords = .ok assembly
      ∧ Plain.isStart (Plain.textAt (Text.program twoRecords) 0) = true
      ∧ (∀ r ∈ assembly.object.text, ∀ code ∈ r.codes, code.length = 6)
      ∧ assembly.object.text[0]? = some r₀ ∧ assembly.object.text[1]? = some r₁
      ∧ r₀.LoadsInPlace
        (ObjectProgram.recordStatements { recordCapacity := 2 } assembly.statements 0)
      ∧ ¬ r₁.LoadsInPlace
        (ObjectProgram.recordStatements { recordCapacity := 2 } assembly.statements 1) := by
  have hstart : Plain.isStart (Plain.textAt (Text.program twoRecords) 0) = true := by
    decide +kernel
  -- the builder gets the statements as they are, since sorting does not evaluate
  have hshape : (FirstPass.run (Text.program twoRecords)).result.toOption.map (fun placed =>
      (((SecondPass.run placed).fault,
        (ObjectProgram.buildInOrder { recordCapacity := 2 }
          (SecondPass.run placed).statements).toOption.map
            (·.text.map (·.codes.map String.length))),
        (SecondPass.run placed).statements.map (fun s => (s.line, s.bytes)),
        [0, 1].map fun i => (ObjectProgram.recordStatements { recordCapacity := 2 }
          (SecondPass.run placed).statements i).map Statement.line))
      = some ((none, some [[6, 6], [6, 6]]),
          [(1, 0), (2, 3), (3, 0), (4, 3), (5, 3), (6, 3), (7, 3), (8, 0)],
          [[2, 4], [5, 7]]) := by
    decide +kernel
  obtain ⟨placed, hplaced, hshape⟩ := Option.map_eq_some_iff.mp hshape
  obtain ⟨⟨hfault, hlengths⟩, hsizes, hlines⟩ := by simpa only [Prod.mk.injEq] using hshape
  obtain ⟨object, hobject, hlengths⟩ := Option.map_eq_some_iff.mp hlengths
  obtain ⟨assembly, hok, hstatements, rfl⟩ := exists_assemble_eq_ok rfl
    (eq_ok_of_toOption hplaced) hfault (eq_ok_of_toOption hobject)
  rw [← hstatements] at hsizes hlines
  obtain ⟨hlow, hhigh⟩ := List.cons.inj hlines
  have hsix : ∀ r ∈ assembly.object.text, ∀ code ∈ r.codes, code.length = 6 := by
    have hall : ∀ lengths ∈ assembly.object.text.map (·.codes.map String.length),
        ∀ n ∈ lengths, n = 6 := by
      rw [hlengths]
      decide
    exact fun r hr code hcode =>
      hall _ (List.mem_map_of_mem hr) _ (List.mem_map_of_mem hcode)
  obtain ⟨r₀, r₁, htext⟩ : ∃ r₀ r₁, assembly.object.text = [r₀, r₁] :=
    List.length_eq_two.mp (by simpa using congrArg List.length hlengths)
  have hr₀ : assembly.object.text[0]? = some r₀ := by rw [htext]; rfl
  have hr₁ : assembly.object.text[1]? = some r₁ := by rw [htext]; rfl
  obtain ⟨-, hrecords⟩ := text_loads_in_place_iff hok hstart hsix
  refine ⟨assembly, r₀, r₁, hok, hstart, hsix, hr₀, hr₁, ?_, fun hload => ?_⟩
  · obtain ⟨_, first, last, rfl, -, hfirst, hlast, -, hiff, -⟩ := hrecords 0 r₀ hr₀
    obtain ⟨h2, h4⟩ := ObjectProgram.line_of_ends hlow hfirst hlast
    have hall : ∀ place ∈ assembly.statements.map (fun s => (s.line, s.bytes)),
        2 < place.1 → place.1 < 4 → place.2 = 0 := by
      rw [hsizes]
      decide
    refine hiff.mpr fun s hs _ hs2 hs4 => ?_
    rw [h2] at hs2
    rw [h4] at hs4
    exact hall _ (List.mem_map_of_mem hs) hs2 hs4
  · obtain ⟨_, first, last, rfl, -, hfirst, hlast, -, hiff, -⟩ := hrecords 1 r₁ hr₁
    have hhigh : (ObjectProgram.recordStatements { recordCapacity := 2 }
        assembly.statements 1).map Statement.line = [5, 7] := (List.cons.inj hhigh).1
    obtain ⟨h5, h7⟩ := ObjectProgram.line_of_ends hhigh hfirst hlast
    have hgap : (6, 3) ∈ assembly.statements.map (fun s => (s.line, s.bytes)) := by
      rw [hsizes]
      decide
    obtain ⟨s, hs, hplace⟩ := List.mem_map.mp hgap
    obtain ⟨hline, hbytes⟩ := Prod.mk.inj hplace
    have hout : s ∉ ObjectProgram.recordStatements { recordCapacity := 2 }
        assembly.statements 1 := fun hmem => by
      have hmem := List.mem_map_of_mem (f := Statement.line) hmem
      rw [hhigh, hline] at hmem
      exact absurd hmem (by decide)
    have hzero := hiff.mp hload s hs hout (by omega) (by omega)
    omega

end TwoPass
