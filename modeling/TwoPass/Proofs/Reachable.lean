import TwoPass.Proofs.Layout

/-!
# Reachable layouts

The counter of the first pass keeps its addresses as text and moves them by
adding text, and a sum of two numerals need not be a numeral again. So it is not
plain that the addition in `Layout.advance` always succeeds, nor that the
address a statement gets is spelt the way an address should be. Both hold, but
only along whole runs: every line that comes in, placed or refused, has to leave
a layout that is fit for the next one.

`Layout.Sound` is what every line preserves. The base is a spelling, though
perhaps of a value above the numerals. The extent that waits to be added is made
of two numerals, because its address was held against the highest one before
it was put there, and sizes are cut down to numerals. That is why the addition
cannot fail (`Layout.Sound.advance_eq`), and why a fault of hexadecimal
arithmetic can only come from the operand of a `START`.

Runs are sequences of numbered lines that go on after a refusal, with any
numbers. The first pass itself stops at a refusal and numbers its lines from
one, so its runs are among these.
-/

namespace TwoPass

/-- An address is a numeral no larger than the highest address. -/
theorem isAddress_iff {text : String} :
    isAddress text = true ↔ Hex.IsNumeral text ∧ Hex.value text ≤ maxAddress := by
  unfold isAddress
  by_cases h : Hex.IsNumeral text
  · rw [Hex.parse_eq_ok h]
    simp [h]
  · rw [Hex.parse_eq_error h]
    simp [h]

namespace Layout

/-! ## The invariant -/

/-- **A sound layout**: what holds between any two lines. -/
structure Sound (l : Layout) : Prop where
  /-- The base is a spelling, of a value no larger than the highest address and
  the largest reservation together. -/
  base_spells : ∀ text, l.base = some text →
    ∃ v ≤ maxAddress + maxReserve, Hex.Spells text v
  /-- The statement that waits to be passed lies at the base. -/
  pending_base : ∀ last, l.pending = some last → l.base = some last.address
  /-- It lies at an address. -/
  pending_address : ∀ last, l.pending = some last → isAddress last.address = true
  /-- Its size is a numeral. -/
  pending_size : ∀ last, l.pending = some last → Hex.IsNumeral last.size

theorem sound_fresh : Sound {} where
  base_spells := fun _ h => nomatch h
  pending_base := fun _ h => nomatch h
  pending_address := fun _ h => nomatch h
  pending_size := fun _ h => nomatch h

/-- The layout whose base has moved past the statement placed last. -/
def advanced (l : Layout) : Layout :=
  match l.pending with
  | some last =>
    { l with
      base := some (Hex.render (Hex.value last.address + Hex.value last.size))
      pending := none }
  | none => l

theorem advanced_of_pending_none {l : Layout} (h : l.pending = none) : l.advanced = l := by
  unfold advanced
  rw [h]

@[simp] theorem advanced_pending (l : Layout) : l.advanced.pending = none := by
  unfold advanced
  split
  · rfl
  · next h => exact h

@[simp] theorem advanced_startLine (l : Layout) : l.advanced.startLine = l.startLine := by
  unfold advanced
  split <;> rfl

/-- **The base of a sound layout can always move**: the two texts can be
added. -/
theorem Sound.advance_eq {l : Layout} (h : l.Sound) : l.advance = (l.advanced, .ok ()) := by
  unfold advance advanced
  cases hp : l.pending with
  | none => split <;> simp_all
  | some last =>
    have hadd := Hex.add_eq_ok (isAddress_iff.mp (h.pending_address last hp)).1
      (h.pending_size last hp)
    simp only [h.pending_base last hp, hadd]

/-- So a line finds the base moved, and one of the six things happens to it. -/
theorem Sound.placing {l : Layout} (h : l.Sound) (line : Nat) (text : String) :
    l.advanced.Placing line text (l.place line text) := by
  unfold place
  rw [h.advance_eq]
  exact placing_placeNext l.advanced line text

/-- A layout with nothing to pass is sound as soon as its base is. -/
theorem sound_of_pending_none {l : Layout} (hp : l.pending = none)
    (hb : ∀ text, l.base = some text → ∃ v ≤ maxAddress + maxReserve, Hex.Spells text v) :
    l.Sound where
  base_spells := hb
  pending_base := fun last h => by rw [hp] at h; cases h
  pending_address := fun last h => by rw [hp] at h; cases h
  pending_size := fun last h => by rw [hp] at h; cases h

/-- A sum reaches at most the highest address and the largest reservation
together. -/
theorem Sound.advanced {l : Layout} (h : l.Sound) : l.advanced.Sound := by
  refine sound_of_pending_none l.advanced_pending fun text htext => ?_
  unfold Layout.advanced at htext
  split at htext
  · next last hp =>
    cases htext
    refine ⟨_, ?_, Hex.spells_render _⟩
    have hsize : Hex.value last.size < maxReserve + 1 := (h.pending_size last hp).2.2
    exact Nat.add_le_add (isAddress_iff.mp (h.pending_address last hp)).2
      (Nat.le_of_lt_succ hsize)
  · exact h.base_spells text htext

theorem advanced_base_isSome {l : Layout} (h : l.base.isSome) : l.advanced.base.isSome := by
  unfold advanced
  split
  · rfl
  · exact h

/-! ## One line -/

/-- The place a statement meets is a spelling within reach. -/
theorem Sound.meets_spells {l : Layout} (h : l.Sound) {s : Statement} {base : String}
    (hm : l.Meets s base) : ∃ v ≤ maxAddress + maxReserve, Hex.Spells base v := by
  cases hm with
  | origin _ _ hv =>
    refine ⟨_, ?_, Hex.spells_render _⟩
    have hlt : _ < maxReserve + 1 := Statement.origin?_lt hv
    exact (Nat.le_of_lt_succ hlt).trans (Nat.le_add_left _ _)
  | base _ hb => exact h.base_spells base hb

/-- **A line leaves a sound layout**, placed or refused. -/
theorem Sound.place {l : Layout} (h : l.Sound) (line : Nat) (text : String) :
    (l.place line text).layout.Sound := by
  have hsound := h.advanced
  have hpending := l.advanced_pending
  have hplacing := h.placing line text
  generalize l.place line text = p at hplacing
  cases hplacing with
  | unread _ => exact hsound
  | second _ _ _ => exact sound_of_pending_none hpending hsound.base_spells
  | misgiven _ _ _ _ _ => exact sound_of_pending_none hpending hsound.base_spells
  | unbased _ _ _ =>
    refine sound_of_pending_none hpending fun text htext => ?_
    cases htext
    exact ⟨0, Nat.zero_le _, Hex.spells_render 0⟩
  | @settled s base _ hmeets hfits =>
    refine ⟨fun text htext => ?_, fun last hlast => ?_, fun last hlast => ?_,
      fun last hlast => ?_⟩
    · cases htext
      exact hsound.meets_spells hmeets
    · cases hlast
      rfl
    · cases hlast
      exact hfits
    · cases hlast
      exact s.isNumeral_size
  | @beyond s base _ hmeets _ =>
    refine sound_of_pending_none hpending fun text htext => ?_
    cases htext
    exact hsound.meets_spells hmeets

/-- A base that is set stays set. -/
theorem Sound.base_isSome_place {l : Layout} (h : l.Sound) (hb : l.base.isSome)
    (line : Nat) (text : String) : (l.place line text).layout.base.isSome := by
  have hbase := advanced_base_isSome hb
  have hplacing := h.placing line text
  generalize l.place line text = p at hplacing
  cases hplacing with
  | unread _ => exact hbase
  | second _ _ _ => exact hbase
  | misgiven _ _ _ _ _ => exact hbase
  | unbased _ _ _ => rfl
  | settled _ _ _ => rfl
  | beyond _ _ _ => rfl

/-- **Only a `START` can be at fault with its hexadecimal text**, and only with
its own operand. -/
theorem Sound.hex_fault {l : Layout} (h : l.Sound) {line n : Nat} {text content : String}
    {cause : HexFault} (hp : (l.place line text).result = .error (.hex n content cause)) :
    ∃ s origin, Statement.read line text = .ok s ∧ s.isStart = true
      ∧ s.operand = some (.literal origin) ∧ ¬ Hex.IsNumeral origin := by
  have hplacing := h.placing line text
  generalize l.place line text = p at hplacing hp
  cases hplacing with
  | unread hread =>
    unfold Statement.read at hread
    cases hp
    split at hread <;> cases hread
  | second _ _ _ => cases hp
  | misgiven hread hstart _ hoperand hbad => exact ⟨_, _, hread, hstart, hoperand, hbad⟩
  | unbased _ _ _ => cases hp
  | settled _ _ _ => cases hp
  | beyond _ _ _ => cases hp

/-- An address that a line gets is the spelling of an address. -/
theorem Sound.address_spells {l : Layout} (h : l.Sound) {line : Nat} {text address : String}
    {s : Statement} (hp : (l.place line text).result = .ok s)
    (ha : s.address = some address) : ∃ v ≤ maxAddress, Hex.Spells address v := by
  have hplacing := h.placing line text
  generalize l.place line text = p at hplacing hp
  cases hplacing with
  | unread _ => cases hp
  | second _ _ _ => cases hp
  | misgiven _ _ _ _ _ => cases hp
  | unbased hread _ _ =>
    cases hp
    rw [(Statement.line_of_read hread).2.1] at ha
    cases ha
  | settled _ hmeets hfits =>
    cases hp
    cases ha
    obtain ⟨v, -, hv⟩ := h.advanced.meets_spells hmeets
    refine ⟨v, ?_, hv⟩
    rw [← hv.value_eq]
    exact (isAddress_iff.mp hfits).2
  | beyond _ _ _ => cases hp

/-! ## The missing `START`

A program without a base is told so once. That is a matter of the whole run, and
the measure that carries it is whether the base is still unset: a line that
reports a missing `START` sets the base, and nothing unsets it. -/

/-- Whether a diagnostic reports a missing `START`. -/
def reportsMissingStart (d : Diagnostic) : Bool := d.finding = .missingStart

/-- Nothing said before a statement is placed is about a missing `START`. -/
theorem countP_findingsBefore (l : Layout) (s : Statement) :
    (l.findingsBefore s).countP reportsMissingStart = 0 := by
  rw [List.countP_eq_zero]
  intro d hd
  unfold findingsBefore at hd
  rcases List.mem_append.mp hd with hd | hd
  · obtain ⟨label, first, hf⟩ := finding_of_mem_define hd
    simp [reportsMissingStart, hf]
  · split at hd
    · simp [reportsMissingStart, Statement.finding_of_mem_originFindings hd]
    · exact absurd hd List.not_mem_nil

theorem countP_define (l : Layout) (s : Statement) :
    (l.define s).2.countP reportsMissingStart = 0 := by
  have h := l.countP_findingsBefore s
  rw [findingsBefore, List.countP_append] at h
  omega

/-- Nothing said about a size is about a missing `START`. -/
theorem countP_size (s : Statement) : s.size.2.countP reportsMissingStart = 0 := by
  rw [List.countP_eq_zero]
  intro d hd
  obtain ⟨mnemonic, operand, hf⟩ := Statement.finding_of_mem_size hd
  simp [reportsMissingStart, hf]

/-- How many of some events report a missing `START`. -/
def missingStarts (events : List Event) : Nat :=
  (Event.diagnostics events).countP reportsMissingStart

@[simp] theorem missingStarts_append (a b : List Event) :
    missingStarts (a ++ b) = missingStarts a + missingStarts b := by
  rw [missingStarts, Event.diagnostics_append, List.countP_append]
  rfl

@[simp] theorem missingStarts_opening (line : Nat) (text : String) (events : List Event) :
    missingStarts (opening line text :: events) = missingStarts events := rfl

@[simp] theorem missingStarts_diagnosed (found : List Diagnostic) :
    missingStarts (found.map .diagnosed) = found.countP reportsMissingStart := by
  rw [missingStarts, Event.diagnostics_map_diagnosed]

/-- How many missing `START`s a layout can still report. -/
def openReports (l : Layout) : Nat := if l.base.isSome then 0 else 1

/-- **A report of a missing `START` uses up the one there is.** -/
theorem Sound.missingStarts_place {l : Layout} (h : l.Sound) (line : Nat) (text : String) :
    missingStarts (l.place line text).events + (l.place line text).layout.openReports
      ≤ l.openReports := by
  have hkept : (l.place line text).layout.openReports ≤ l.openReports := by
    unfold openReports
    by_cases hb : l.base.isSome
    · rw [if_pos hb, if_pos (h.base_isSome_place hb line text)]
    · rw [if_neg hb]
      split <;> omega
  have hplacing := h.placing line text
  generalize l.place line text = p at hplacing hkept
  cases hplacing with
  | unread _ => exact (Nat.zero_add _).trans_le hkept
  | second _ _ _ => simpa [countP_define] using hkept
  | misgiven _ _ _ _ _ => simpa [countP_define] using hkept
  | unbased _ _ hunset =>
    have hb : ¬ l.base.isSome := fun hb => by
      have := advanced_base_isSome hb
      rw [hunset] at this
      cases this
    have hone : missingStarts [.diagnosed ⟨line, .missingStart⟩] = 1 := rfl
    simp [countP_findingsBefore, hone, openReports, hb]
  | @settled s base _ _ _ =>
    have hnone : missingStarts [.placed line base s.size.1] = 0 := rfl
    simpa [countP_findingsBefore, countP_size, hnone] using hkept
  | beyond _ _ _ => simpa [countP_findingsBefore] using hkept

/-! ## Whole runs -/

/-- The layout that a run of numbered lines leaves behind, placed or refused. -/
def after (l : Layout) : List (Nat × String) → Layout
  | [] => l
  | (line, text) :: more => (l.place line text).layout.after more

/-- What became of each line of a run. -/
def placements (l : Layout) : List (Nat × String) → List Placement
  | [] => []
  | (line, text) :: more =>
    l.place line text :: (l.place line text).layout.placements more

theorem Sound.after {l : Layout} (h : l.Sound) (calls : List (Nat × String)) :
    (l.after calls).Sound := by
  induction calls generalizing l with
  | nil => exact h
  | cons call more ih => exact ih (h.place call.1 call.2)

theorem Sound.base_isSome_after {l : Layout} (h : l.Sound) (hb : l.base.isSome)
    (calls : List (Nat × String)) : (l.after calls).base.isSome := by
  induction calls generalizing l with
  | nil => exact hb
  | cons call more ih =>
    exact ih (h.place call.1 call.2) (h.base_isSome_place hb call.1 call.2)

theorem Sound.missingStarts_placements {l : Layout} (h : l.Sound)
    (calls : List (Nat × String)) :
    missingStarts ((l.placements calls).flatMap Placement.events) ≤ l.openReports := by
  induction calls generalizing l with
  | nil => exact Nat.zero_le _
  | cons call more ih =>
    have hrest := ih (h.place call.1 call.2)
    have hline := h.missingStarts_place call.1 call.2
    rw [placements, List.flatMap_cons, missingStarts_append]
    omega

/-- **The invariant of the counter.** After any run of numbered lines on a fresh
layout, whatever became of them:

* the base is a spelling of a value that the highest address and the largest
  size reach together, and once set it stays set;
* an extent that waits to be added lies at the base, at an address, and its
  size is a numeral, so that the addition cannot fail;
* the next line is at fault with hexadecimal text only if it is a `START` whose
  operand is no numeral, and an address it gets is the spelling of an address;
* a missing `START` has been reported at most once. -/
theorem counter_invariant (calls : List (Nat × String)) :
    (∀ text, (after {} calls).base = some text → ∃ v ≤ 0x100FFFFFE, Hex.Spells text v)
      ∧ ((after {} calls).base.isSome → ∀ more, ((after {} calls).after more).base.isSome)
      ∧ (∀ last, (after {} calls).pending = some last →
          (after {} calls).base = some last.address
            ∧ (∃ v ≤ 0xFFFFFF, Hex.parse last.address = .ok v)
            ∧ ∃ v < 2 ^ 32, Hex.parse last.size = .ok v)
      ∧ (after {} calls).advance.2 = .ok ()
      ∧ (∀ line text n content cause,
          ((after {} calls).place line text).result = .error (.hex n content cause) →
            ∃ s origin, Statement.read line text = .ok s ∧ s.isStart = true
              ∧ s.operand = some (.literal origin) ∧ ¬ Hex.IsNumeral origin)
      ∧ (∀ line text s address, ((after {} calls).place line text).result = .ok s →
          s.address = some address → ∃ v ≤ 0xFFFFFF, Hex.Spells address v)
      ∧ missingStarts ((placements {} calls).flatMap Placement.events) ≤ 1 := by
  have h := sound_fresh.after calls
  refine ⟨h.base_spells, fun hb more => h.base_isSome_after hb more, fun last hlast => ?_,
    congrArg Prod.snd h.advance_eq, fun _ _ _ _ _ => h.hex_fault,
    fun _ _ _ _ => h.address_spells, sound_fresh.missingStarts_placements calls⟩
  obtain ⟨hnum, hle⟩ := isAddress_iff.mp (h.pending_address last hlast)
  have hsize := h.pending_size last hlast
  exact ⟨h.pending_base last hlast, ⟨_, hle, Hex.parse_eq_ok hnum⟩,
    ⟨_, hsize.2.2, Hex.parse_eq_ok hsize⟩⟩

end Layout

end TwoPass
