import TwoPass.Proofs.Reachable

/-!
# The layout in plain numbers

Where a program lies in memory is a matter of adding up sizes. This module says
so without a counter: `Plain.address` gives every line its address by recursion
on the line before it, over natural numbers, with sizes that are not cut down
and sums that are not bounded. Nothing in it fails. What can be wrong with a line
is said apart (`Plain.Violates`), again without reference to the first pass.

The first pass computes the same layout, but it goes about it differently: it
adds up text, it moves the base only when the next line comes in, it cuts
large sizes down, and it lets a sum grow out of the numerals before it looks at
it. So the two do not agree at every moment. They agree *up to the highest
address* (`Plain.SameUpTo`): as long as the plain sum is an address the counter
has exactly it, and once the plain sum is too high the counter's is too high as
well, though perhaps another number. That is enough, because a line whose
address is too high is refused, and only a `START` could have used it.

`Plain.Agrees` is this relation between a layout and the lines read so far,
`Plain.Agrees.place_ok` carries it over one line, and `FirstPass.runFrom_plain`
over a whole program.
-/

namespace TwoPass

/-! ## Words and what they stand for -/

/-- A word stands for something of that name. -/
theorem Mnemonic.name_lookup (word : String) : (lookup word).name = word := by
  unfold lookup
  cases h : table.find? (·.name = word) with
  | none => rfl
  | some found => simpa using List.find?_some h

/-- Only the name of a directive stands for it. -/
theorem Mnemonic.lookup_eq_directive_iff {word : String} {d : Directive} :
    lookup word = .directive d ↔ word = d.name := by
  constructor
  · intro h
    rw [← name_lookup word, h]
    rfl
  · rintro rfl
    cases d <;> decide +kernel

namespace Plain

/-! ## Lines -/

/-- The mnemonic and the operand of a line. A label does not matter to the
layout. -/
def parts? (text : String) : Option (String × Option String) :=
  match Text.fields text with
  | [mnemonic] => some (mnemonic, none)
  | [mnemonic, operand] => some (mnemonic, some operand)
  | [_, mnemonic, operand] => some (mnemonic, some operand)
  | _ => none

/-- Whether a line is a `START`. -/
def isStart (text : String) : Bool := (parts? text).any (·.1 = "START")

/-- The operand of a line. -/
def operand? (text : String) : Option String := (parts? text).bind Prod.snd

/-- The origin on a line: the value of its operand, or zero if there is none. -/
def origin (text : String) : Nat := ((operand? text).map Hex.value).getD 0

/-- The number of bytes a reservation asks for, or three if its count cannot be
read. -/
def reserved (unit : Nat) (operand : Option String) : Nat :=
  ((operand.bind Decimal.count?).map (unit * ·)).getD 3

/-- **The number of bytes a line takes**, however many they are. -/
def size (text : String) : Nat :=
  match parts? text with
  | none => 3
  | some (mnemonic, operand) =>
    if mnemonic = "START" ∨ mnemonic = "END" then 0
    else if mnemonic = "RESW" then reserved 3 operand
    else if mnemonic = "RESB" then reserved 1 operand
    else 3

/-- The line at a position, counted from zero. -/
def textAt (lines : List String) (k : Nat) : String := lines.getD k ""

/-- **The address of a line** at a position, counted from zero. -/
def address (lines : List String) : Nat → Option Nat
  | 0 =>
    if isStart (textAt lines 0) then some (origin (textAt lines 0)) else none
  | k + 1 =>
    if isStart (textAt lines (k + 1)) then some (origin (textAt lines (k + 1)))
    else
      match address lines k with
      | none => some 0
      | some a => some (a + size (textAt lines k))

/-! ## What can be wrong with a line -/

/-- A line has one to three fields. -/
def WellFormed (text : String) : Prop :=
  1 ≤ (Text.fields text).length ∧ (Text.fields text).length ≤ 3

/-- A line is a `START` and there was one before. -/
def SecondStart (lines : List String) (k : Nat) : Prop :=
  isStart (textAt lines k) = true ∧ ∃ j < k, isStart (textAt lines j) = true

/-- A line is a `START` whose operand is no numeral. -/
def BadOrigin (text : String) : Prop :=
  isStart text = true ∧ ∃ operand, operand? text = some operand ∧ ¬ Hex.IsNumeral operand

/-- The address of a line is too high. -/
def Overflows (lines : List String) (k : Nat) : Prop :=
  ∃ a, address lines k = some a ∧ 0xFFFFFF < a

/-- **Something is wrong with a line.** -/
def Violates (lines : List String) (k : Nat) : Prop :=
  ¬ WellFormed (textAt lines k) ∨ SecondStart lines k ∨ BadOrigin (textAt lines k)
    ∨ Overflows lines k

/-- **A fault says what is wrong with a line**, and of several things the first:
the fields, then a second `START`, then the origin, then the address. -/
def Blames (lines : List String) (k : Nat) : Fault → Prop
  | .fieldCount line content found =>
    line = k + 1 ∧ content = textAt lines k ∧ found = (Text.fields content).length
      ∧ ¬ WellFormed (textAt lines k)
  | .duplicateStart line content first =>
    line = k + 1 ∧ content = textAt lines k ∧ WellFormed (textAt lines k)
      ∧ SecondStart lines k
      ∧ ∃ j < k, first = j + 1 ∧ isStart (textAt lines j) = true
  | .hex line content cause =>
    line = k + 1 ∧ content = textAt lines k ∧ WellFormed (textAt lines k)
      ∧ ¬ SecondStart lines k ∧ BadOrigin (textAt lines k)
      ∧ ∃ operand, operand? (textAt lines k) = some operand ∧ cause = .malformed operand
  | .addressOverflow line content _ =>
    line = k + 1 ∧ content = textAt lines k ∧ WellFormed (textAt lines k)
      ∧ ¬ SecondStart lines k ∧ ¬ BadOrigin (textAt lines k) ∧ Overflows lines k
  | _ => False

/-- **A program that can be laid out.** -/
structure Accepted (lines : List String) : Prop where
  /-- Every line has one to three fields. -/
  fields : ∀ text ∈ lines, WellFormed text
  /-- At most one line is a `START`. -/
  start : ∀ j < lines.length, ∀ k < lines.length,
    isStart (textAt lines j) = true → isStart (textAt lines k) = true → j = k
  /-- The operand of the `START`, if it has one, is a numeral. -/
  origin : ∀ text ∈ lines, isStart text = true →
    ∀ operand, operand? text = some operand → Hex.IsNumeral operand
  /-- Every address is an address of the machine. -/
  address : ∀ k < lines.length, ∀ a, address lines k = some a → a ≤ 0xFFFFFF

/-! ## Lines and the statements read from them -/

/-- A statement is made of the parts of its line. -/
theorem parts?_of_read {line : Nat} {text : String} {s : Statement}
    (h : Statement.read line text = .ok s) :
    ∃ mnemonic operand, parts? text = some (mnemonic, operand)
      ∧ s.mnemonic = Mnemonic.lookup mnemonic
      ∧ s.operand = operand.map (Mnemonic.lookup mnemonic).operand
      ∧ WellFormed text := by
  unfold Statement.read at h
  split at h
  all_goals
    next hfields =>
      cases h <;>
        exact ⟨_, _, by rw [parts?, hfields], rfl, rfl, by simp [WellFormed, hfields]⟩

theorem wellFormed_of_read {line : Nat} {text : String} {s : Statement}
    (h : Statement.read line text = .ok s) : WellFormed text := by
  obtain ⟨_, _, _, _, _, hwell⟩ := parts?_of_read h
  exact hwell

/-- A line that cannot be read has the wrong number of fields. -/
theorem fault_of_read {line : Nat} {text : String} {fault : Fault}
    (h : Statement.read line text = .error fault) :
    fault = .fieldCount line text (Text.fields text).length ∧ ¬ WellFormed text := by
  unfold Statement.read at h
  split at h
  · cases h
  · cases h
  · cases h
  · next hone htwo hthree =>
    cases h
    refine ⟨rfl, fun ⟨hlow, hhigh⟩ => ?_⟩
    match hfields : Text.fields text with
    | [] => rw [hfields] at hlow; exact absurd hlow (by decide)
    | [a] => exact hone a hfields
    | [a, b] => exact htwo a b hfields
    | [a, b, c] => exact hthree a b c hfields
    | a :: b :: c :: d :: rest =>
      rw [hfields] at hhigh
      simp only [List.length_cons] at hhigh
      omega

/-- A statement is `START` if its line is. -/
theorem isStart_of_read {line : Nat} {text : String} {s : Statement}
    (h : Statement.read line text = .ok s) : s.isStart = isStart text := by
  obtain ⟨mnemonic, operand, hparts, hm, -, -⟩ := parts?_of_read h
  rw [Statement.isStart, isStart, hparts, hm, Option.any_some, decide_eq_decide,
    Mnemonic.lookup_eq_directive_iff]
  rfl

/-- The origin of a `START` is the origin on its line. -/
theorem origin?_of_read {line : Nat} {text : String} {s : Statement} {v : Nat}
    (h : Statement.read line text = .ok s) (hs : isStart text = true)
    (hv : s.origin? = some v) : origin text = v ∧ ¬ BadOrigin text := by
  obtain ⟨mnemonic, operand, hparts, hm, hop, -⟩ := parts?_of_read h
  have hname : mnemonic = "START" := by simpa [isStart, hparts] using hs
  subst hname
  have hoperand : operand? text = operand := by rw [operand?, hparts]; rfl
  unfold Statement.origin? at hv
  rw [hop] at hv
  unfold BadOrigin origin
  rw [hoperand]
  cases operand with
  | none =>
    cases hv
    exact ⟨rfl, fun ⟨_, _, ho, _⟩ => nomatch ho⟩
  | some field =>
    have hlook : Mnemonic.lookup "START" = .directive .start :=
      Mnemonic.lookup_eq_directive_iff.mpr rfl
    have hlit : (Mnemonic.lookup "START").operand field = .literal field := by
      rw [hlook]
      rfl
    simp only [Option.map_some, hlit] at hv
    split at hv
    · next hnum =>
      cases hv
      refine ⟨rfl, fun ⟨_, other, ho, hbad⟩ => ?_⟩
      cases ho
      exact hbad hnum
    · cases hv

/-- An operand that is no numeral is the operand on the line. -/
theorem operand?_of_read {line : Nat} {text field : String} {s : Statement}
    (h : Statement.read line text = .ok s) (hop : s.operand = some (.literal field)) :
    operand? text = some field := by
  obtain ⟨mnemonic, operand, hparts, -, hmap, -⟩ := parts?_of_read h
  rw [hop] at hmap
  rw [operand?, hparts]
  cases operand with
  | none => cases hmap
  | some other =>
    have heq : Operand.literal field = (Mnemonic.lookup mnemonic).operand other :=
      Option.some.inj hmap
    unfold Mnemonic.operand at heq
    split at heq
    · cases heq
      rfl
    · split at heq <;> cases heq

/-- The count of a reservation is the count on its line. -/
theorem count?_of_read {s : Statement} {d : Directive} {operand : Option String}
    (hd : Mnemonic.takesNumber (.directive d) = true)
    (hop : s.operand = operand.map (Mnemonic.operand (.directive d))) :
    s.count? = operand.bind Decimal.count? := by
  unfold Statement.count?
  rw [hop]
  cases operand with
  | none => rfl
  | some field =>
    have hlit : Mnemonic.operand (.directive d) field = .literal field := by
      rw [Mnemonic.operand, if_pos hd]
    rw [Option.map_some, hlit]
    rfl

/-- A reservation is the one asked for, cut down. -/
theorem value_reserve {s : Statement} {operand : Option String} (unit : Nat)
    (h : s.count? = operand.bind Decimal.count?) :
    Hex.value (s.reserve unit).1 = min (reserved unit operand) maxReserve := by
  unfold Statement.reserve reserved
  rw [h]
  cases operand.bind Decimal.count? with
  | none =>
    show Hex.value "3" = min 3 maxReserve
    decide
  | some n =>
    show Hex.value (Hex.render (min (n * unit) maxReserve)) = min (unit * n) maxReserve
    rw [Hex.value_render, Nat.mul_comm]

/-- **The size of a statement is the size of its line, cut down.** -/
theorem bytes_of_read {line : Nat} {text : String} {s : Statement}
    (h : Statement.read line text = .ok s) : s.bytes = min (size text) maxReserve := by
  obtain ⟨mnemonic, operand, hparts, hm, hop, -⟩ := parts?_of_read h
  have hword : ∀ {d : Directive}, s.mnemonic = .directive d → mnemonic = d.name :=
    fun hd => Mnemonic.lookup_eq_directive_iff.mp (hm.symm.trans hd)
  have hother : ∀ d : Directive, s.mnemonic ≠ .directive d → mnemonic ≠ d.name :=
    fun d hd hname => hd (hm.trans (Mnemonic.lookup_eq_directive_iff.mpr hname))
  unfold Statement.bytes Statement.size size
  rw [hparts]
  split
  · next hd =>
    rw [hword hd]
    show Hex.value "0" = min 0 maxReserve
    decide
  · next hd =>
    rw [hword hd]
    show Hex.value "0" = min 0 maxReserve
    decide
  · next hd =>
    rw [← hm, hd] at hop
    rw [value_reserve 3 (count?_of_read rfl hop), hword hd]
    rfl
  · next hd =>
    rw [← hm, hd] at hop
    rw [value_reserve 1 (count?_of_read rfl hop), hword hd]
    rfl
  · next hstart hfinish hwords hbytes =>
    have h1 : mnemonic ≠ "START" := hother .start hstart
    have h2 : mnemonic ≠ "END" := hother .finish hfinish
    have h3 : mnemonic ≠ "RESW" := hother .reserveWords hwords
    have h4 : mnemonic ≠ "RESB" := hother .reserveBytes hbytes
    simp only [h1, h2, h3, h4, or_self, if_false]
    decide

/-! ## The relation between the two layouts -/

/-- The address a line would have if it were no `START`: what the lines before
it reach. -/
def reached (lines : List String) : Nat → Option Nat
  | 0 => none
  | k + 1 =>
    match address lines k with
    | none => some 0
    | some a => some (a + size (textAt lines k))

theorem address_eq (lines : List String) (k : Nat) :
    address lines k
      = if isStart (textAt lines k) then some (origin (textAt lines k))
        else reached lines k := by
  cases k <;> rfl

/-- **Two sums agree up to the highest address**: they are the same, or both too
high. -/
def SameUpTo (a b : Nat) : Prop := a = b ∨ (maxAddress < a ∧ maxAddress < b)

theorem SameUpTo.eq_of_le {a b : Nat} (h : SameUpTo a b) (ha : a ≤ maxAddress) : a = b := by
  rcases h with h | ⟨h, -⟩
  · exact h
  · omega

/-- Cutting a size down makes no difference up to the highest address. -/
theorem sameUpTo_add_min (a n : Nat) : SameUpTo (a + min n maxReserve) (a + n) := by
  have hreserve : maxReserve = 0xFFFFFFFF := rfl
  have hmax : maxAddress = 0xFFFFFF := rfl
  by_cases hn : n ≤ maxReserve
  · exact .inl (by rw [Nat.min_eq_left hn])
  · exact .inr (by omega)

/-- **A layout agrees with the lines before a position.** -/
structure Agrees (lines : List String) (k : Nat) (l : Layout) : Prop where
  /-- The layout is sound. -/
  sound : l.Sound
  /-- A `START` that was seen is one of the lines. -/
  seen : ∀ first, l.startLine = some first →
    ∃ j < k, first = j + 1 ∧ isStart (textAt lines j) = true
  /-- If none was seen there is none. -/
  unseen : l.startLine = none → ∀ j < k, isStart (textAt lines j) = false
  /-- Without a base there are no lines yet. -/
  unset : l.advanced.base = none → k = 0
  /-- The base is what the lines reach, up to the highest address. -/
  base : ∀ text, l.advanced.base = some text →
    ∃ a b, text = Hex.render a ∧ reached lines k = some b ∧ SameUpTo a b

theorem agrees_fresh (lines : List String) : Agrees lines 0 {} where
  sound := Layout.sound_fresh
  seen := fun _ h => nomatch h
  unseen := fun _ j hj => absurd hj (Nat.not_lt_zero j)
  unset := fun _ => rfl
  base := fun _ h => nomatch h

theorem isAddress_render {v : Nat} : isAddress (Hex.render v) = true ↔ v ≤ maxAddress := by
  have hmax : maxAddress = 0xFFFFFF := rfl
  rw [isAddress_iff, Hex.isNumeral_render, Hex.value_render]
  exact ⟨fun h => h.2, fun h => ⟨by omega, h⟩⟩

/-! ## One line -/

section Step

variable {lines : List String} {k : Nat} {l : Layout} {s : Statement} {base : String}

/-- Where a statement would lie is its plain address, up to the highest one. A
statement that gets this far is not refused for what it is. -/
theorem Agrees.meets (h : Agrees lines k l)
    (hread : Statement.read (k + 1) (textAt lines k) = .ok s)
    (hm : l.advanced.Meets s base) :
    ¬ SecondStart lines k ∧ ¬ BadOrigin (textAt lines k)
      ∧ ∃ a b, base = Hex.render a ∧ address lines k = some b ∧ SameUpTo a b := by
  have hstart := isStart_of_read hread
  cases hm with
  | @origin v hs hfirst hv =>
    rw [hs] at hstart
    rw [Layout.advanced_startLine] at hfirst
    obtain ⟨horigin, hgood⟩ := origin?_of_read hread hstart.symm hv
    refine ⟨?_, hgood, v, v, rfl, ?_, .inl rfl⟩
    · rintro ⟨-, j, hj, hjs⟩
      rw [h.unseen hfirst j hj] at hjs
      cases hjs
    · rw [address_eq, if_pos hstart.symm, horigin]
  | base hs hb =>
    rw [hs] at hstart
    obtain ⟨a, b, htext, hreached, hsame⟩ := h.base _ hb
    refine ⟨fun hsecond => ?_, fun hbad => ?_, a, b, htext, ?_, hsame⟩
    · rw [hsecond.1] at hstart
      cases hstart
    · rw [hbad.1] at hstart
      cases hstart
    · rw [address_eq, ← hstart]
      exact hreached

/-- The line of the `START` is kept up to date. -/
theorem Agrees.startLineAfter (h : Agrees lines k l)
    (hread : Statement.read (k + 1) (textAt lines k) = .ok s) :
    (∀ first, l.advanced.startLineAfter s = some first →
        ∃ j < k + 1, first = j + 1 ∧ isStart (textAt lines j) = true)
      ∧ (l.advanced.startLineAfter s = none →
        ∀ j < k + 1, isStart (textAt lines j) = false) := by
  have hline := (Statement.line_of_read hread).1
  have hstart := isStart_of_read hread
  unfold Layout.startLineAfter
  rw [hstart, hline, Layout.advanced_startLine]
  cases hs : isStart (textAt lines k) with
  | true =>
    refine ⟨fun first hfirst => ⟨k, Nat.lt_succ_self k, ?_, hs⟩, fun hnone => nomatch hnone⟩
    exact (Option.some.inj hfirst).symm
  | false =>
    refine ⟨fun first hfirst => ?_, fun hnone j hj => ?_⟩
    · obtain ⟨j, hj, hrest⟩ := h.seen first hfirst
      exact ⟨j, Nat.lt_succ_of_lt hj, hrest⟩
    · rcases Nat.lt_succ_iff_lt_or_eq.mp hj with hj | rfl
      · exact h.unseen hnone j hj
      · exact hs

/-- **The statement on a line, with the plain address of the line.** -/
def Placed (lines : List String) (k : Nat) (s : Statement) : Prop :=
  ∃ t, Statement.read (k + 1) (textAt lines k) = .ok t
    ∧ s = { t with address := (address lines k).map Hex.render }

/-- A line without a base is the first line, and it gets no address. -/
theorem Agrees.unbased (h : Agrees lines k l)
    (hread : Statement.read (k + 1) (textAt lines k) = .ok s)
    (hs : s.isStart = false) (hb : l.advanced.base = none) :
    address lines k = none := by
  obtain rfl := h.unset hb
  rw [address_eq, ← isStart_of_read hread, hs]
  rfl

/-- **A line that is accepted has its plain address**, and the layout it leaves
agrees with one line more. -/
theorem Agrees.place_ok (h : Agrees lines k l)
    (hp : (l.place (k + 1) (textAt lines k)).result = .ok s) :
    ¬ Violates lines k ∧ Placed lines k s
      ∧ Agrees lines (k + 1) (l.place (k + 1) (textAt lines k)).layout := by
  have hsound := h.sound.place (k + 1) (textAt lines k)
  have hplacing := h.sound.placing (k + 1) (textAt lines k)
  generalize l.place (k + 1) (textAt lines k) = p at hplacing hp hsound
  cases hplacing with
  | unread _ => cases hp
  | second _ _ _ => cases hp
  | misgiven _ _ _ _ _ => cases hp
  | beyond _ _ _ => cases hp
  | unbased hread hs hb =>
    cases hp
    have hwell := wellFormed_of_read hread
    have hstart := (isStart_of_read hread).symm.trans hs
    have haddress := h.unbased hread hs hb
    obtain ⟨hseen, hunseen⟩ := h.startLineAfter hread
    rw [Layout.startLineAfter, hs] at hseen hunseen
    refine ⟨?_, ⟨_, hread, ?_⟩, ⟨hsound, hseen, hunseen, ?_, ?_⟩⟩
    · rintro (hbad | hbad | hbad | ⟨a, ha, -⟩)
      · exact hbad hwell
      · exact absurd hbad.1 (by rw [hstart]; decide)
      · exact absurd hbad.1 (by rw [hstart]; decide)
      · rw [haddress] at ha
        cases ha
    · rw [haddress, Option.map_none, ← (Statement.line_of_read hread).2.1]
    · intro hnone
      rw [Layout.advanced_of_pending_none (by exact l.advanced_pending)] at hnone
      cases hnone
    · -- the base is zero now, and nothing waits to be added to it
      intro text htext
      rw [Layout.advanced_of_pending_none (by exact l.advanced_pending)] at htext
      cases htext
      exact ⟨0, 0, by decide, by rw [reached, haddress], .inl rfl⟩
  | @settled t base hread hmeets hfits =>
    cases hp
    have hwell := wellFormed_of_read hread
    obtain ⟨hsecond, hgood, a, b, rfl, haddress, hsame⟩ := h.meets hread hmeets
    have hle := isAddress_render.mp hfits
    obtain rfl := hsame.eq_of_le hle
    obtain ⟨hseen, hunseen⟩ := h.startLineAfter hread
    refine ⟨?_, ⟨t, hread, by rw [haddress]; rfl⟩, ⟨hsound, hseen, hunseen, ?_, ?_⟩⟩
    · rintro (hbad | hbad | hbad | ⟨b, hb, hhigh⟩)
      · exact hbad hwell
      · exact hsecond hbad
      · exact hgood hbad
      · rw [haddress] at hb
        cases hb
        exact absurd hle (Nat.not_le_of_lt hhigh)
    · intro hnone
      cases hnone
    · intro text htext
      cases htext
      refine ⟨_, _, rfl, by rw [reached, haddress], ?_⟩
      show SameUpTo (Hex.value (Hex.render a) + t.bytes) _
      rw [Hex.value_render, bytes_of_read hread]
      exact sameUpTo_add_min a _

/-- **A line that is refused is at fault**, and the fault says with what. -/
theorem Agrees.place_error {fault : Fault} (h : Agrees lines k l)
    (hp : (l.place (k + 1) (textAt lines k)).result = .error fault) :
    Blames lines k fault := by
  have hplacing := h.sound.placing (k + 1) (textAt lines k)
  generalize l.place (k + 1) (textAt lines k) = p at hplacing hp
  cases hplacing with
  | unread hread =>
    cases hp
    obtain ⟨rfl, hill⟩ := fault_of_read hread
    exact ⟨rfl, rfl, rfl, hill⟩
  | second hread hs hseen =>
    cases hp
    have hwell := wellFormed_of_read hread
    rw [Layout.advanced_startLine] at hseen
    obtain ⟨j, hj, hfirst, hjs⟩ := h.seen _ hseen
    have hstart := (isStart_of_read hread).symm.trans hs
    exact ⟨rfl, rfl, hwell, ⟨hstart, j, hj, hjs⟩, j, hj, hfirst, hjs⟩
  | misgiven hread hs hfirst hop hbad =>
    cases hp
    have hwell := wellFormed_of_read hread
    rw [Layout.advanced_startLine] at hfirst
    have hstart := (isStart_of_read hread).symm.trans hs
    have hoperand := operand?_of_read hread hop
    refine ⟨rfl, rfl, hwell, ?_, ⟨hstart, _, hoperand, hbad⟩, _, hoperand, rfl⟩
    rintro ⟨-, j, hj, hjs⟩
    rw [h.unseen hfirst j hj] at hjs
    cases hjs
  | unbased _ _ _ => cases hp
  | settled _ _ _ => cases hp
  | beyond hread hmeets hhigh =>
    cases hp
    have hwell := wellFormed_of_read hread
    obtain ⟨hsecond, hgood, a, b, rfl, haddress, hsame⟩ := h.meets hread hmeets
    have ha : maxAddress < a := by
      rw [← Nat.not_le, ← isAddress_render, hhigh]
      decide
    refine ⟨rfl, rfl, hwell, hsecond, hgood, b, haddress, ?_⟩
    rcases hsame with rfl | ⟨-, hb⟩
    · exact ha
    · exact hb

end Step

/-! ## Whole programs -/

theorem textAt_eq_getElem {lines : List String} {k : Nat} (h : k < lines.length) :
    textAt lines k = lines[k] := by
  rw [textAt, List.getD_eq_getElem?_getD, List.getElem?_eq_getElem h, Option.getD_some]

theorem textAt_of_drop {lines more : List String} {k : Nat} {text : String}
    (h : lines.drop k = text :: more) :
    k < lines.length ∧ textAt lines k = text ∧ lines.drop (k + 1) = more := by
  have hk : k < lines.length := by
    by_contra hge
    rw [List.drop_eq_nil_of_le (Nat.le_of_not_lt hge)] at h
    cases h
  rw [List.drop_eq_getElem_cons hk] at h
  injection h with htext hmore
  exact ⟨hk, (textAt_eq_getElem hk).trans htext, hmore⟩

/-- What a fault blames a line for is wrong with it, and the fault has the
number of the line. -/
theorem Blames.violates {lines : List String} {k : Nat} {fault : Fault}
    (h : Blames lines k fault) : Violates lines k ∧ fault.line? = some (k + 1) := by
  cases fault with
  | fieldCount line content found =>
    obtain ⟨rfl, -, -, hbad⟩ := h
    exact ⟨.inl hbad, rfl⟩
  | duplicateStart line content first =>
    obtain ⟨rfl, -, -, hbad, -⟩ := h
    exact ⟨.inr (.inl hbad), rfl⟩
  | hex line content cause =>
    obtain ⟨rfl, -, -, -, hbad, -⟩ := h
    exact ⟨.inr (.inr (.inl hbad)), rfl⟩
  | addressOverflow line content address =>
    obtain ⟨rfl, -, -, -, -, hbad⟩ := h
    exact ⟨.inr (.inr (.inr hbad)), rfl⟩
  | emptyProgram => exact h.elim
  | missingAddress => exact h.elim
  | unresolved count => exact h.elim

/-- **A program can be laid out if nothing is wrong with any line.** -/
theorem accepted_iff {lines : List String} :
    Accepted lines ↔ ∀ k < lines.length, ¬ Violates lines k := by
  constructor
  · intro h k hk hbad
    have hmem : textAt lines k ∈ lines := by
      rw [textAt_eq_getElem hk]
      exact List.getElem_mem hk
    rcases hbad with hbad | ⟨hs, j, hj, hjs⟩ | ⟨hs, operand, hop, hbad⟩ | ⟨a, ha, hhigh⟩
    · exact hbad (h.fields _ hmem)
    · exact absurd (h.start j (hj.trans hk) k hk hjs hs) (Nat.ne_of_lt hj)
    · exact hbad (h.origin _ hmem hs operand hop)
    · exact absurd (h.address k hk a ha) (Nat.not_le_of_lt hhigh)
  · intro h
    have hat : ∀ text ∈ lines, ∃ k < lines.length, textAt lines k = text := by
      intro text htext
      obtain ⟨k, hk, rfl⟩ := List.mem_iff_getElem.mp htext
      exact ⟨k, hk, textAt_eq_getElem hk⟩
    refine ⟨fun text htext => ?_, fun j hj k hk hjs hks => ?_,
      fun text htext hs operand hop => ?_, fun k hk a ha => ?_⟩
    · obtain ⟨k, hk, rfl⟩ := hat text htext
      by_contra hbad
      exact h k hk (.inl hbad)
    · -- of two lines that are `START` the later one is refused
      rcases Nat.lt_trichotomy j k with hlt | heq | hlt
      · exact absurd (.inr (.inl ⟨hks, j, hlt, hjs⟩)) (h k hk)
      · exact heq
      · exact absurd (.inr (.inl ⟨hjs, k, hlt, hks⟩)) (h j hj)
    · obtain ⟨k, hk, rfl⟩ := hat text htext
      by_contra hbad
      exact h k hk (.inr (.inr (.inl ⟨hs, operand, hop, hbad⟩)))
    · by_contra hhigh
      exact h k hk (.inr (.inr (.inr ⟨a, ha, Nat.lt_of_not_le hhigh⟩)))

/-- Only the first line can be without an address. -/
theorem address_eq_none_iff {lines : List String} {k : Nat} :
    address lines k = none ↔ k = 0 ∧ isStart (textAt lines 0) = false := by
  rw [address_eq]
  cases k with
  | zero =>
    cases isStart (textAt lines 0) with
    | true => simp
    | false => simp [reached]
  | succ k =>
    refine ⟨fun h => ?_, fun h => absurd h.1 (Nat.succ_ne_zero k)⟩
    split at h
    · cases h
    · rw [reached] at h
      split at h <;> cases h

end Plain

namespace FirstPass

theorem runFrom_cons_error {l : Layout} {line : Nat} {text : String} {more : List String}
    {fault : Fault} (h : (l.place line text).result = .error fault) :
    (runFrom l line (text :: more)).result = .error fault := by
  rw [runFrom]
  simp only [h]

theorem runFrom_cons_ok {l : Layout} {line : Nat} {text : String} {more : List String}
    {s : Statement} (h : (l.place line text).result = .ok s) :
    (runFrom l line (text :: more)).result
      = (runFrom (l.place line text).layout (line + 1) more).result.map (s :: ·) := by
  rw [runFrom]
  simp only [h]

/-- A run that comes to its end places its first line and then all others. -/
theorem runFrom_cons_eq_ok {l : Layout} {line : Nat} {text : String} {more : List String}
    {statements : List Statement} (h : (runFrom l line (text :: more)).result = .ok statements) :
    ∃ s rest, (l.place line text).result = .ok s
      ∧ (runFrom (l.place line text).layout (line + 1) more).result = .ok rest
      ∧ statements = s :: rest := by
  cases hplaced : (l.place line text).result with
  | error fault =>
    rw [runFrom_cons_error hplaced] at h
    cases h
  | ok s =>
    rw [runFrom_cons_ok hplaced] at h
    cases hrest : (runFrom (l.place line text).layout (line + 1) more).result with
    | error fault =>
      rw [hrest] at h
      cases h
    | ok rest =>
      rw [hrest] at h
      cases h
      exact ⟨s, rest, rfl, rfl, rfl⟩

theorem result_run (lines : List String) : (run lines).result = (runFrom {} 1 lines).result := by
  unfold run
  simp only
  split
  · rfl
  · rfl

/-- **The first pass computes the plain layout** from any line on: it accepts the
rest of the program exactly as long as nothing is wrong with a line. -/
theorem runFrom_plain {lines rest : List String} {k : Nat} {l : Layout}
    (hrest : lines.drop k = rest) (h : Plain.Agrees lines k l) :
    (∀ statements, (runFrom l (k + 1) rest).result = .ok statements →
        (∀ j, k ≤ j → j < lines.length → ¬ Plain.Violates lines j)
          ∧ statements.length = rest.length
          ∧ ∀ i s, statements[i]? = some s → Plain.Placed lines (k + i) s)
      ∧ ∀ fault, (runFrom l (k + 1) rest).result = .error fault →
        ∃ j, k ≤ j ∧ j < lines.length
          ∧ (∀ i, k ≤ i → i < j → ¬ Plain.Violates lines i) ∧ Plain.Blames lines j fault := by
  induction rest generalizing k l with
  | nil =>
    have hlen : lines.length ≤ k := List.drop_eq_nil_iff.mp hrest
    refine ⟨fun statements hok => ?_, fun fault herr => nomatch herr⟩
    cases hok
    refine ⟨fun j hkj hj => absurd (hkj.trans_lt hj) (Nat.not_lt_of_le hlen), rfl, ?_⟩
    intro i s hs
    cases hs
  | cons text more ih =>
    obtain ⟨hk, rfl, hmore⟩ := Plain.textAt_of_drop hrest
    cases hp : (l.place (k + 1) (Plain.textAt lines k)).result with
    | error cause =>
      rw [runFrom_cons_error hp]
      refine ⟨fun statements hok => (nomatch hok), fun fault herr => ?_⟩
      cases herr
      exact ⟨k, le_rfl, hk, fun i hki hik => absurd hik (Nat.not_lt_of_le hki),
        h.place_error hp⟩
    | ok s =>
      obtain ⟨hgood, hplaced, hnext⟩ := h.place_ok hp
      obtain ⟨ihok, iherr⟩ := ih hmore hnext
      rw [runFrom_cons_ok hp]
      cases hr : (runFrom (l.place (k + 1) (Plain.textAt lines k)).layout (k + 1 + 1) more).result with
      | error cause =>
        refine ⟨fun statements hok => (nomatch hok), fun fault herr => ?_⟩
        cases herr
        obtain ⟨j, hkj, hj, hbefore, hblames⟩ := iherr cause hr
        refine ⟨j, by omega, hj, fun i hki hij => ?_, hblames⟩
        rcases Nat.eq_or_lt_of_le hki with rfl | hlt
        · exact hgood
        · exact hbefore i hlt hij
      | ok tail =>
        refine ⟨fun statements hok => ?_, fun fault herr => nomatch herr⟩
        cases hok
        obtain ⟨hafter, hlen, hall⟩ := ihok tail hr
        refine ⟨fun j hkj hj => ?_, by rw [List.length_cons, List.length_cons, hlen], ?_⟩
        · rcases Nat.eq_or_lt_of_le hkj with rfl | hlt
          · exact hgood
          · exact hafter j hlt hj
        · intro i t ht
          cases i with
          | zero =>
            cases ht
            exact hplaced
          | succ i =>
            have := hall i t ht
            rwa [show k + 1 + i = k + (i + 1) from by omega] at this

/-- A program that was accepted lies where the plain layout puts it. -/
theorem run_plain {lines : List String} {statements : List Statement}
    (h : (run lines).result = .ok statements) :
    (∀ k < lines.length, ¬ Plain.Violates lines k)
      ∧ statements.length = lines.length
      ∧ ∀ k s, statements[k]? = some s → Plain.Placed lines k s := by
  rw [result_run] at h
  obtain ⟨hgood, hlen, hall⟩ := (runFrom_plain rfl (Plain.agrees_fresh lines)).1 statements h
  refine ⟨fun k hk => hgood k (Nat.zero_le k) hk, hlen, fun k s hs => ?_⟩
  have := hall k s hs
  rwa [Nat.zero_add] at this

/-- A program that was refused has a first line with which something is wrong,
and the fault is about that line. -/
theorem run_blames {lines : List String} {fault : Fault}
    (h : (run lines).result = .error fault) :
    ∃ k < lines.length, (∀ j < k, ¬ Plain.Violates lines j) ∧ Plain.Blames lines k fault := by
  rw [result_run] at h
  obtain ⟨k, -, hk, hbefore, hblames⟩ :=
    (runFrom_plain rfl (Plain.agrees_fresh lines)).2 fault h
  exact ⟨k, hk, fun j hj => hbefore j (Nat.zero_le j) hj, hblames⟩

/-- **The first pass refines the plain layout.** It accepts a program exactly if
the plain layout does. The statements it then gives are those of the lines, in
order, numbered from one, each with the spelling of its plain address; only a
first line that is no `START` has none. If the first pass refuses a program, the
fault belongs to the first line with which something is wrong, and says what: its
fields, a second `START`, its origin or its address, the first of these that
applies. -/
theorem run_refines_plain (lines : List String) :
    ((∃ statements, (run lines).result = .ok statements) ↔ Plain.Accepted lines)
      ∧ (∀ statements, (run lines).result = .ok statements →
          statements.length = lines.length
            ∧ ∀ k s, statements[k]? = some s →
              s.line = k + 1
                ∧ Statement.read (k + 1) (Plain.textAt lines k) = .ok { s with address := none }
                ∧ (∀ text, s.address = some text ↔
                    ∃ a, Plain.address lines k = some a ∧ Hex.Spells text a)
                ∧ (s.address = none ↔
                    k = 0 ∧ Plain.isStart (Plain.textAt lines 0) = false))
      ∧ ∀ fault, (run lines).result = .error fault →
          ∃ k < lines.length, fault.line? = some (k + 1)
            ∧ Plain.Violates lines k ∧ (∀ j < k, ¬ Plain.Violates lines j)
            ∧ Plain.Blames lines k fault := by
  refine ⟨⟨fun ⟨statements, h⟩ => Plain.accepted_iff.mpr (run_plain h).1, fun h => ?_⟩,
    fun statements h => ?_, fun fault h => ?_⟩
  · cases hr : (run lines).result with
    | ok statements => exact ⟨statements, rfl⟩
    | error fault =>
      obtain ⟨k, hk, -, hblames⟩ := run_blames hr
      exact absurd hblames.violates.1 (Plain.accepted_iff.mp h k hk)
  · obtain ⟨-, hlen, hall⟩ := run_plain h
    refine ⟨hlen, fun k s hs => ?_⟩
    obtain ⟨t, hread, rfl⟩ := hall k s hs
    obtain ⟨hline, hnone, -⟩ := Statement.line_of_read hread
    refine ⟨hline, ?_, fun text => ?_, ?_⟩
    · rw [hread, ← hnone]
    · rw [Option.map_eq_some_iff]
      exact exists_congr fun a => and_congr_right fun _ => by
        rw [Hex.spells_iff, eq_comm]
    · rw [Option.map_eq_none_iff, Plain.address_eq_none_iff]
  · obtain ⟨k, hk, hbefore, hblames⟩ := run_blames h
    exact ⟨k, hk, hblames.violates.2, hblames.violates.1, hbefore, hblames⟩

end FirstPass

end TwoPass
