import TwoPass.Proofs.RefusedLines

/-!
# What the first pass reports

The first pass reports as it goes, out of a layout that it keeps for itself. What it has
reported when it is done can be read off the statements it leaves behind, without the
layout: `Statement.warnings` says what there is to report about a statement, given the
statements before it. A label was defined before if one of them defines it, a `START` has
an origin or not, and a statement without an address is the one that came without a
`START`.

The layout enters through one invariant. The labels it knows are those of the statements
so far, each with the line of the first of them (`Layout.Knows`), and every line that is
placed keeps it so.
-/

namespace TwoPass

namespace Statement

/-- What there is to report about the label of a statement, given the statements before
it. -/
def labelFindings (before : List Statement) (s : Statement) : List Diagnostic :=
  (s.label.bind fun name => (before.find? (·.label = some name)).map fun first =>
    Diagnostic.mk s.line (.duplicateLabel name first.line)).toList

theorem finding_of_mem_labelFindings {before : List Statement} {s : Statement} {d : Diagnostic}
    (h : d ∈ s.labelFindings before) : ∃ name first, d.finding = .duplicateLabel name first := by
  simp only [labelFindings, Option.mem_toList, Option.bind_eq_some_iff,
    Option.map_eq_some_iff] at h
  obtain ⟨name, -, first, -, rfl⟩ := h
  exact ⟨name, first.line, rfl⟩

/-- **What the first pass reports about a statement**, given the statements before it. -/
def warnings (before : List Statement) (s : Statement) : List Diagnostic :=
  s.labelFindings before ++ (if s.isStart then s.originFindings else [])
    ++ if s.address.isSome then s.size.2 else [⟨s.line, .missingStart⟩]

/-- **What the first pass reports about statements**, given those before them. -/
def warningsFrom (before : List Statement) : List Statement → List Diagnostic
  | [] => []
  | s :: more => s.warnings before ++ warningsFrom (before ++ [s]) more

end Statement

namespace Layout

variable {l : Layout} {before : List Statement}

/-- **The labels of a layout are those of the statements so far**, each with the line of
the first statement that defines it. -/
def Knows (l : Layout) (before : List Statement) : Prop :=
  ∀ name, l.labels.lookup name = (before.find? (·.label = some name)).map Statement.line

theorem knows_fresh : Knows {} [] := fun _ => rfl

/-- Moving the base changes no label. -/
theorem Knows.advanced (h : l.Knows before) : l.advanced.Knows before := by
  intro name
  rw [advanced_labels]
  exact h name

/-- A label is reported if a statement before defines it. -/
theorem Knows.define_snd (h : l.Knows before) (s : Statement) :
    (l.define s).2 = s.labelFindings before := by
  unfold define Statement.labelFindings
  cases s.label with
  | none => rfl
  | some name =>
    simp only [h name, Option.bind_some]
    cases before.find? (·.label = some name) with
    | none => rfl
    | some first => rfl

/-- One statement more is known by its label and its line. -/
theorem Knows.labelsAfter (h : l.Knows before) {s t : Statement} (hlabel : t.label = s.label)
    (hline : t.line = s.line) :
    ∀ name, (l.labelsAfter s).lookup name
      = ((before ++ [t]).find? (·.label = some name)).map Statement.line := by
  intro name
  rw [lookup_labelsAfter, h name, List.find?_append, Option.map_or]
  congr 1
  by_cases hname : s.label = some name
  · simp [hname, hlabel, hline]
  · simp [hname, hlabel]

/-- **A line that is placed reports the warnings of its statement**, and its label is
known from then on. -/
theorem Sound.warnings_place (h : l.Sound) (hknows : l.Knows before) {line : Nat}
    {text : String} {s : Statement} (hok : (l.place line text).result = .ok s) :
    Event.diagnostics (l.place line text).events = s.warnings before
      ∧ (l.place line text).layout.Knows (before ++ [s]) := by
  have hadvanced := hknows.advanced
  have hplacing := h.placing line text
  generalize l.place line text = placement at hok hplacing
  cases hplacing with
  | unread _ => cases hok
  | second _ _ _ => cases hok
  | misgiven _ _ _ _ _ => cases hok
  | beyond _ _ _ => cases hok
  | unbased hread hstart hunset =>
    cases hok
    obtain ⟨rfl, haddress, -⟩ := Statement.line_of_read hread
    refine ⟨?_, hadvanced.labelsAfter rfl rfl⟩
    simp [findingsBefore, hadvanced.define_snd, Statement.warnings, haddress]
  | @settled t base hread hmeets hfits =>
    cases hok
    obtain ⟨rfl, -⟩ := Statement.line_of_read hread
    refine ⟨?_, hadvanced.labelsAfter rfl rfl⟩
    have hwarnings : Statement.warnings before { t with address := some base }
        = l.advanced.findingsBefore t ++ t.size.2 := by
      rw [findingsBefore, hadvanced.define_snd]
      rfl
    rw [hwarnings]
    simp

end Layout

namespace FirstPass

/-- **What a run reports are the warnings of its statements**, from any layout on. -/
theorem diagnostics_runFrom {l : Layout} {before : List Statement} (hsound : l.Sound)
    (hknows : l.Knows before) {lines : List String} {line : Nat} {statements : List Statement}
    (h : (runFrom l line lines).result = .ok statements) :
    Event.diagnostics (runFrom l line lines).events = Statement.warningsFrom before statements := by
  induction lines generalizing l before line statements with
  | nil =>
    cases h
    rfl
  | cons text more ih =>
    obtain ⟨s, rest, hplaced, hrest, rfl⟩ := runFrom_cons_eq_ok h
    obtain ⟨hown, hnext⟩ := hsound.warnings_place hknows hplaced
    have hmore := ih (hsound.place line text) hnext hrest
    rw [runFrom]
    simp only [hplaced, Event.diagnostics_append, hown, hmore]
    rfl

/-- **What the first pass reports are the warnings of its statements.** -/
theorem diagnostics_run {lines : List String} {statements : List Statement}
    (h : (run lines).result = .ok statements) :
    (run lines).diagnostics = Statement.warningsFrom [] statements := by
  rw [result_run] at h
  rw [← diagnostics_runFrom Layout.sound_fresh Layout.knows_fresh h, diagnostics, run]
  simp only [h, Event.diagnostics_append]
  exact List.append_nil _

end FirstPass

end TwoPass
