import TwoPass.Proofs.PlainLayout

/-!
# What a refused line leaves behind

A line that is refused has been through some of the hands of the first pass
already. Its label may have been defined and its `START` noted, and nothing takes
these back. The first pass itself stops there, so it never sees the difference;
a caller that goes on with the next line can.

This module says how much of a refused line later lines can tell. Two layouts
that agree on the base and on the labels, apart from one label perhaps, give
every later line the same result and the same diagnostics, apart from reports
that this label was defined before (`Layout.AgreesApartFrom`, carried over one line
by `AgreesApartFrom.place` and over a run by `AgreesApartFrom.outcomes_eq`). A refused
line leaves such a layout unless it is a first `START`. A first `START` counts from
then on as the `START` there is, and if its origin is too high the base stays
there and no line is accepted any more (`Layout.Stuck`).

So a refused line leaves no trace exactly if it brings no label that is new and is
no first `START` (`Layout.refused_line_trace`).
-/

namespace TwoPass

/-! ## Lines and their labels -/

namespace Plain

/-- The label of a line. -/
def label? (text : String) : Option String :=
  match Text.fields text with
  | [label, _, _] => some label
  | _ => none

theorem label?_of_read {line : Nat} {text : String} {s : Statement}
    (h : Statement.read line text = .ok s) : s.label = label? text := by
  unfold Statement.read at h
  unfold label?
  split at h
  all_goals
    next hfields =>
      cases h
      try rw [hfields]; rfl

/-- A line that cannot be read has no label and is no `START`. -/
theorem label?_of_unread {line : Nat} {text : String} {fault : Fault}
    (h : Statement.read line text = .error fault) :
    label? text = none ∧ isStart text = false := by
  unfold Statement.read at h
  split at h
  · cases h
  · cases h
  · cases h
  · next hone htwo hthree =>
    refine ⟨?_, ?_⟩
    · unfold label?
      split
      · next hfields => exact absurd hfields (hthree _ _ _)
      · rfl
    · unfold isStart parts?
      split
      · next hfields => exact absurd hfields (hone _)
      · next hfields => exact absurd hfields (htwo _ _)
      · next hfields => exact absurd hfields (hthree _ _ _)
      · rfl

end Plain

namespace Layout

variable {l m : Layout} {line : Nat} {text : String} {label : Option String}

/-! ## What every line does to the labels and to the `START` -/

@[simp] theorem advanced_labels (l : Layout) : l.advanced.labels = l.labels := by
  unfold advanced
  split <;> rfl

/-- A label is known after a statement if it was before or is the statement's
own. -/
theorem lookup_labelsAfter (l : Layout) (s : Statement) (name : String) :
    (l.labelsAfter s).lookup name
      = (l.labels.lookup name).or (if s.label = some name then some s.line else none) := by
  unfold labelsAfter define
  cases hlabel : s.label with
  | none => simp
  | some own =>
    by_cases hname : own = name
    · subst hname
      cases hfirst : l.labels.lookup own with
      | some first => simp [hfirst]
      | none => simp [hfirst, List.lookup_append]
    · have hother : (name == own) = false := beq_false_of_ne (Ne.symm hname)
      cases hfirst : l.labels.lookup own with
      | some first => simp [hfirst, hname]
      | none => simp [hfirst, hname, List.lookup_append, List.lookup_cons, hother]

/-- What is said about a label is that it was defined before, and where. -/
theorem mem_define_iff {l : Layout} {s : Statement} {d : Diagnostic} :
    d ∈ (l.define s).2 ↔ ∃ name first, s.label = some name ∧ l.labels.lookup name = some first
      ∧ d = ⟨s.line, .duplicateLabel name first⟩ := by
  unfold define
  cases hlabel : s.label with
  | none => simp
  | some own =>
    cases hfirst : l.labels.lookup own with
    | some first => simp [hfirst]
    | none => simp [hfirst]

/-- **Every line, placed or refused, defines its label** unless it was defined
before. -/
theorem Sound.lookup_place (h : l.Sound) (line : Nat) (text name : String) :
    (l.place line text).layout.labels.lookup name
      = (l.labels.lookup name).or (if Plain.label? text = some name then some line else none) := by
  have hafter : ∀ {s : Statement}, Statement.read line text = .ok s →
      (l.advanced.labelsAfter s).lookup name
        = (l.labels.lookup name).or
            (if Plain.label? text = some name then some line else none) := fun hread => by
    rw [lookup_labelsAfter, advanced_labels, Plain.label?_of_read hread,
      (Statement.line_of_read hread).1]
  have hplacing := h.placing line text
  generalize l.place line text = p at hplacing
  cases hplacing with
  | unread hread => simp [(Plain.label?_of_unread hread).1]
  | second hread _ _ => exact hafter hread
  | misgiven hread _ _ _ _ => exact hafter hread
  | unbased hread _ _ => exact hafter hread
  | settled hread _ _ => exact hafter hread
  | beyond hread _ _ => exact hafter hread

/-- A statement with a place that is a `START` is the first one. -/
theorem Meets.startLineAfter {s : Statement} {base : String} (h : l.Meets s base)
    (hread : Statement.read line text = .ok s) :
    l.startLineAfter s = l.startLine.or (if Plain.isStart text then some line else none) := by
  unfold Layout.startLineAfter
  rw [← Plain.isStart_of_read hread, (Statement.line_of_read hread).1]
  cases hs : s.isStart with
  | true => rw [(h.of_isStart hs).1]; rfl
  | false => simp

/-- **Every `START`, placed or refused, counts as the `START`** unless there was
one before. -/
theorem Sound.startLine_place (h : l.Sound) (line : Nat) (text : String) :
    (l.place line text).layout.startLine
      = l.startLine.or (if Plain.isStart text then some line else none) := by
  have hplacing := h.placing line text
  rw [← l.advanced_startLine]
  generalize l.place line text = p at hplacing
  cases hplacing with
  | unread hread => simp [(Plain.label?_of_unread hread).2]
  | second _ _ hseen => simp only [hseen, Option.some_or]
  | misgiven hread hs hfirst _ _ =>
    rw [hfirst, ← Plain.isStart_of_read hread, hs]
    rfl
  | unbased hread hs _ => simp [← Plain.isStart_of_read hread, hs]
  | settled hread hmeets _ => exact hmeets.startLineAfter hread
  | beyond hread hmeets _ => exact hmeets.startLineAfter hread

/-- The line of the `START` never changes once it is set. -/
theorem Sound.startLine_after (h : l.Sound) {first : Nat} (hfirst : l.startLine = some first)
    (calls : List (Nat × String)) : (l.after calls).startLine = some first := by
  induction calls generalizing l with
  | nil => exact hfirst
  | cons call more ih =>
    refine ih (h.place call.1 call.2) ?_
    rw [h.startLine_place, hfirst, Option.some_or]

/-- So a later `START` is refused, and the fault names the first. -/
theorem Sound.place_second (h : l.Sound) {first : Nat} (hfirst : l.startLine = some first)
    (line : Nat) (hs : Plain.isStart text = true) :
    (l.place line text).result = .error (.duplicateStart line text first) := by
  cases hread : Statement.read line text with
  | error fault =>
    rw [(Plain.label?_of_unread hread).2] at hs
    cases hs
  | ok s =>
    have hs := (Plain.isStart_of_read hread).trans hs
    rw [(h.placing line text).unique (.second hread hs (l.advanced_startLine.trans hfirst))]

/-! ## Reports of a label -/

/-- Whether a diagnostic reports a label as defined before. If no label is given
none does. -/
def reportsAgain (label : Option String) (d : Diagnostic) : Bool :=
  match d.finding with
  | .duplicateLabel name _ => some name = label
  | _ => false

@[simp] theorem reportsAgain_none (d : Diagnostic) : reportsAgain none d = false := by
  unfold reportsAgain
  split <;> simp

/-- Nothing said about an origin is about a label. -/
theorem reportsAgain_originFindings {s : Statement} {d : Diagnostic}
    (hd : d ∈ s.originFindings) : reportsAgain label d = false := by
  rw [reportsAgain, Statement.finding_of_mem_originFindings hd]

/-- Nothing said about a size is about a label. -/
theorem reportsAgain_size {s : Statement} {d : Diagnostic} (hd : d ∈ s.size.2) :
    reportsAgain label d = false := by
  obtain ⟨mnemonic, operand, hfinding⟩ := Statement.finding_of_mem_size hd
  rw [reportsAgain, hfinding]

/-- What a line is told about its label comes first, and nothing behind it is about
a label. -/
theorem Placing.diagnostics_eq {s : Statement} {p : Placement} (h : l.Placing line text p)
    (hread : Statement.read line text = .ok s) :
    ∃ rest, Event.diagnostics p.events = (l.define s).2 ++ rest
      ∧ ∀ name, ∀ d ∈ rest, reportsAgain name d = false := by
  have hbefore : ∀ name, ∀ d ∈ (if s.isStart then s.originFindings else []),
      reportsAgain name d = false := fun name d hd => by
    split at hd
    · exact reportsAgain_originFindings hd
    · cases hd
  cases h with
  | unread hother =>
    rw [hread] at hother
    cases hother
  | second hother _ _ =>
    cases hread.symm.trans hother
    exact ⟨[], by simp, fun _ _ hd => nomatch hd⟩
  | misgiven hother _ _ _ _ =>
    cases hread.symm.trans hother
    exact ⟨[], by simp, fun _ _ hd => nomatch hd⟩
  | unbased hother _ _ =>
    cases hread.symm.trans hother
    refine ⟨(if s.isStart then s.originFindings else []) ++ [⟨line, .missingStart⟩],
      by simp [findingsBefore], fun name d hd => ?_⟩
    rcases List.mem_append.mp hd with hd | hd
    · exact hbefore name d hd
    · rw [List.mem_singleton.mp hd]
      rfl
  | settled hother _ _ =>
    cases hread.symm.trans hother
    refine ⟨(if s.isStart then s.originFindings else []) ++ s.size.2,
      by simp [findingsBefore], fun name d hd => ?_⟩
    rcases List.mem_append.mp hd with hd | hd
    · exact hbefore name d hd
    · exact reportsAgain_size hd
  | beyond hother _ _ =>
    cases hread.symm.trans hother
    exact ⟨if s.isStart then s.originFindings else [], by simp [findingsBefore], hbefore⟩

/-- **A line reports its label exactly if it was defined before**, whatever else
becomes of it. -/
theorem Sound.reportsAgain_iff (h : l.Sound) (line : Nat) (text name : String) :
    (∃ d ∈ Event.diagnostics (l.place line text).events, reportsAgain (some name) d = true)
      ↔ Plain.label? text = some name ∧ (l.labels.lookup name).isSome := by
  have hplacing := h.placing line text
  cases hread : Statement.read line text with
  | error fault =>
    rw [hplacing.unique (.unread hread), (Plain.label?_of_unread hread).1]
    simp
  | ok s =>
    obtain ⟨rest, hdiagnostics, hrest⟩ := hplacing.diagnostics_eq hread
    rw [hdiagnostics, ← Plain.label?_of_read hread, ← l.advanced_labels]
    constructor
    · rintro ⟨d, hd, hreports⟩
      rcases List.mem_append.mp hd with hd | hd
      · obtain ⟨own, first, hown, hfirst, rfl⟩ := mem_define_iff.mp hd
        obtain rfl : own = name := by simpa [reportsAgain] using hreports
        exact ⟨hown, by rw [hfirst]; rfl⟩
      · rw [hrest _ d hd] at hreports
        cases hreports
    · rintro ⟨hown, hsome⟩
      obtain ⟨first, hfirst⟩ := Option.isSome_iff_exists.mp hsome
      have hreport := mem_define_iff.mpr ⟨name, first, hown, hfirst, rfl⟩
      refine ⟨_, List.mem_append_left rest hreport, ?_⟩
      simp [reportsAgain]

/-! ## Layouts that later lines cannot tell apart -/

/-- **What a run of lines shows**: of every line its result and its
diagnostics. -/
def outcomes (l : Layout) (calls : List (Nat × String)) :
    List (Except Fault Statement × List Diagnostic) :=
  (l.placements calls).map fun p => (p.result, Event.diagnostics p.events)

/-- What a run of lines shows to someone who disregards the reports of one
label. -/
def outcomesApartFrom (l : Layout) (label : Option String) (calls : List (Nat × String)) :
    List (Except Fault Statement × List Diagnostic) :=
  (l.outcomes calls).map fun shown => (shown.1, shown.2.filter (!reportsAgain label ·))

@[simp] theorem outcomesApartFrom_none (l : Layout) (calls : List (Nat × String)) :
    l.outcomesApartFrom none calls = l.outcomes calls := by
  simp [outcomesApartFrom]

/-- **Two layouts agree apart from one label**: the next line finds them at the
same base, and they know the same other labels. -/
structure AgreesApartFrom (label : Option String) (l m : Layout) : Prop where
  /-- The one is sound. -/
  sound_left : l.Sound
  /-- So is the other. -/
  sound_right : m.Sound
  /-- They have the same base once it has moved. -/
  base : l.advanced.base = m.advanced.base
  /-- Every other label was defined on the same line, if at all. -/
  labels : ∀ name, some name ≠ label → l.labels.lookup name = m.labels.lookup name

/-- The base moves by what waits to be added. -/
theorem advanced_base_congr (hbase : l.base = m.base) (hpending : l.pending = m.pending) :
    l.advanced.base = m.advanced.base := by
  unfold advanced
  rw [hpending]
  cases m.pending with
  | some last => rfl
  | none => exact hbase

/-- Of a label that the two know alike they say the same. -/
theorem AgreesApartFrom.define (h : AgreesApartFrom label l m) (s : Statement) :
    (l.advanced.define s).2.filter (!reportsAgain label ·)
      = (m.advanced.define s).2.filter (!reportsAgain label ·) := by
  unfold Layout.define
  cases hown : s.label with
  | none => rfl
  | some name =>
    simp only [advanced_labels]
    by_cases hname : some name = label
    · -- whatever is said is about the label that is disregarded
      have hagain : ∀ first, reportsAgain label ⟨s.line, .duplicateLabel name first⟩ = true :=
        fun first => by simp [reportsAgain, hname]
      cases l.labels.lookup name <;> cases m.labels.lookup name <;> simp [hagain]
    · rw [h.labels name hname]
      cases m.labels.lookup name <;> rfl

/-- **Layouts that agree do the same to a line**, and agree behind it. A `START` is
the exception, as long as they differ on whether there was one. -/
theorem AgreesApartFrom.place (h : AgreesApartFrom label l m) (line : Nat)
    (hstart : l.startLine = m.startLine ∨ Plain.isStart text = false) :
    (l.place line text).result = (m.place line text).result
      ∧ (Event.diagnostics (l.place line text).events).filter (!reportsAgain label ·)
        = (Event.diagnostics (m.place line text).events).filter (!reportsAgain label ·)
      ∧ AgreesApartFrom label (l.place line text).layout (m.place line text).layout := by
  have hlabels : ∀ name, some name ≠ label →
      (l.place line text).layout.labels.lookup name
        = (m.place line text).layout.labels.lookup name := fun name hname => by
    rw [h.sound_left.lookup_place, h.sound_right.lookup_place, h.labels name hname]
  have hsame : ∀ {s : Statement}, Statement.read line text = .ok s → s.isStart = true →
      l.advanced.startLine = m.advanced.startLine := fun hread hs => by
    rw [advanced_startLine, advanced_startLine]
    refine hstart.resolve_right fun hother => ?_
    rw [← Plain.isStart_of_read hread, hs] at hother
    cases hother
  have hmeets : ∀ {s : Statement} {base : String}, Statement.read line text = .ok s →
      l.advanced.Meets s base → m.advanced.Meets s base := fun hread hm => by
    cases hm with
    | origin hs hfirst hv => exact .origin hs ((hsame hread hs) ▸ hfirst) hv
    | base hs hbase => exact .base hs (h.base ▸ hbase)
  have hsoundl := h.sound_left.place line text
  have hsoundm := h.sound_right.place line text
  have hp := h.sound_left.placing line text
  have hq := h.sound_right.placing line text
  generalize l.place line text = p at hp hlabels hsoundl ⊢
  generalize m.place line text = q at hq hlabels hsoundm ⊢
  -- the line goes the same way in both layouts
  cases hp with
  | unread hread =>
    obtain rfl := hq.unique (.unread hread)
    exact ⟨rfl, rfl, hsoundl, hsoundm, advanced_base_congr h.base (by simp), hlabels⟩
  | second hread hs hseen =>
    obtain rfl := hq.unique (.second hread hs ((hsame hread hs) ▸ hseen))
    exact ⟨rfl, by simpa using h.define _, hsoundl, hsoundm,
      advanced_base_congr h.base (by simp), hlabels⟩
  | misgiven hread hs hfirst hop hbad =>
    obtain rfl := hq.unique (.misgiven hread hs ((hsame hread hs) ▸ hfirst) hop hbad)
    exact ⟨rfl, by simpa using h.define _, hsoundl, hsoundm,
      advanced_base_congr h.base (by simp), hlabels⟩
  | unbased hread hs hunset =>
    obtain rfl := hq.unique (.unbased hread hs (h.base ▸ hunset))
    exact ⟨rfl, by simpa [findingsBefore] using h.define _, hsoundl, hsoundm,
      advanced_base_congr rfl (by simp), hlabels⟩
  | settled hread hm hfits =>
    obtain rfl := hq.unique (.settled hread (hmeets hread hm) hfits)
    exact ⟨rfl, by simpa [findingsBefore] using h.define _, hsoundl, hsoundm,
      advanced_base_congr rfl rfl, hlabels⟩
  | beyond hread hm hhigh =>
    obtain rfl := hq.unique (.beyond hread (hmeets hread hm) hhigh)
    exact ⟨rfl, by simpa [findingsBefore] using h.define _, hsoundl, hsoundm,
      advanced_base_congr rfl (by simp), hlabels⟩

/-- **Layouts that agree cannot be told apart by a run of lines**, reports of the
one label disregarded. They have to agree on the `START` as well, or the run must
not hold one. -/
theorem AgreesApartFrom.outcomes_eq (h : AgreesApartFrom label l m)
    (calls : List (Nat × String))
    (hstart : l.startLine = m.startLine ∨ ∀ call ∈ calls, Plain.isStart call.2 = false) :
    l.outcomesApartFrom label calls = m.outcomesApartFrom label calls := by
  induction calls generalizing l m with
  | nil => rfl
  | cons call more ih =>
    obtain ⟨hresult, hfound, hnext⟩ :=
      h.place call.1 (hstart.imp_right fun hall => hall call List.mem_cons_self)
    have hmore := ih hnext (hstart.imp
      (fun hsame => by rw [h.sound_left.startLine_place, h.sound_right.startLine_place, hsame])
      (fun hall next hmem => hall next (List.mem_cons_of_mem call hmem)))
    exact congrArg₂ List.cons (Prod.ext hresult hfound) hmore

/-! ## What is left of a refused line -/

/-- The label that a line is the first to bring. -/
def introduces (l : Layout) (text : String) : Option String :=
  (Plain.label? text).filter fun name => (l.labels.lookup name).isNone

/-- A line is the first `START`. -/
def Opens (l : Layout) (text : String) : Prop :=
  Plain.isStart text = true ∧ l.startLine = none

instance (l : Layout) (text : String) : Decidable (l.Opens text) :=
  inferInstanceAs (Decidable (_ ∧ _))

/-- A label other than the one a line brings is known behind the line exactly as it
was known before it. -/
theorem Sound.lookup_place_of_ne (h : l.Sound) (line : Nat) {name : String}
    (hname : some name ≠ l.introduces text) :
    (l.place line text).layout.labels.lookup name = l.labels.lookup name := by
  rw [h.lookup_place]
  cases hfirst : l.labels.lookup name with
  | some first => rfl
  | none =>
    have hother : Plain.label? text ≠ some name := fun hown => hname (by
      rw [introduces, hown, Option.filter_some_pos (by rw [hfirst]; rfl)])
    rw [if_neg hother]
    rfl

/-- **A refused line keeps the base where it was**, unless it is a first `START`
that gives an origin. -/
theorem Sound.base_refused (h : l.Sound) {fault : Fault}
    (hp : (l.place line text).result = .error fault)
    (hopens : ¬ l.Opens text ∨ Plain.BadOrigin text) :
    (l.place line text).layout.advanced.base = l.advanced.base := by
  have hmoved : l.advanced.advanced.base = l.advanced.base := by
    rw [advanced_of_pending_none l.advanced_pending]
  have hplacing := h.placing line text
  rw [← hmoved]
  generalize l.place line text = p at hplacing hp
  cases hplacing with
  | unread _ => rfl
  | second _ _ _ => exact advanced_base_congr rfl rfl
  | misgiven _ _ _ _ _ => exact advanced_base_congr rfl rfl
  | unbased _ _ _ => cases hp
  | settled _ _ _ => cases hp
  | @beyond s base hread hmeets _ =>
    have hs : s.isStart = false := by
      cases hs : s.isStart with
      | false => rfl
      | true =>
        have hstart := (Plain.isStart_of_read hread).symm.trans hs
        obtain ⟨hfirst, v, hv, -⟩ := hmeets.of_isStart hs
        rw [advanced_startLine] at hfirst
        rcases hopens with hopens | hbad
        · exact absurd ⟨hstart, hfirst⟩ hopens
        · exact absurd hbad (Plain.origin?_of_read hread hstart hv).2
    exact advanced_base_congr (hmeets.of_not_isStart hs).symm rfl

/-- **What a refused line leaves behind agrees with what it found**, apart from the
label that it brings. -/
theorem Sound.agrees_refused (h : l.Sound) {fault : Fault}
    (hp : (l.place line text).result = .error fault)
    (hopens : ¬ l.Opens text ∨ Plain.BadOrigin text) :
    AgreesApartFrom (l.introduces text) (l.place line text).layout l where
  sound_left := h.place line text
  sound_right := h
  base := h.base_refused hp hopens
  labels := fun _ hname => h.lookup_place_of_ne line hname

/-- A layout in which no line can be placed any more: the base is too high, and
there was a `START` already. -/
structure Stuck (l : Layout) : Prop where
  /-- There was a `START`. -/
  started : l.startLine.isSome
  /-- Nothing moves the base. -/
  still : l.pending = none
  /-- The base is too high. -/
  high : ∃ base, l.base = some base ∧ isAddress base = false

/-- **A first `START` that is refused** although its origin can be read has one that is
too high, and the layout is stuck. -/
theorem Sound.refused_start (h : l.Sound) {fault : Fault}
    (hp : (l.place line text).result = .error fault) (hopens : l.Opens text)
    (hgood : ¬ Plain.BadOrigin text) :
    0xFFFFFF < Plain.origin text ∧ (l.place line text).layout.Stuck := by
  obtain ⟨hstart, hnone⟩ := hopens
  have hline := h.startLine_place line text
  have hplacing := h.placing line text
  generalize l.place line text = p at hplacing hp hline
  cases hplacing with
  | unread hread =>
    rw [(Plain.label?_of_unread hread).2] at hstart
    cases hstart
  | second _ _ hseen =>
    rw [advanced_startLine, hnone] at hseen
    cases hseen
  | misgiven hread _ _ hop hbad =>
    exact absurd ⟨hstart, _, Plain.operand?_of_read hread hop, hbad⟩ hgood
  | unbased _ _ _ => cases hp
  | settled _ _ _ => cases hp
  | beyond hread hmeets hhigh =>
    obtain ⟨-, v, hv, rfl⟩ := hmeets.of_isStart ((Plain.isStart_of_read hread).trans hstart)
    have hhigh' : ¬ v ≤ maxAddress := fun hle => by
      rw [Plain.isAddress_render.mpr hle] at hhigh
      cases hhigh
    rw [(Plain.origin?_of_read hread hstart hv).1]
    exact ⟨Nat.lt_of_not_le hhigh', by rw [hline, hstart, hnone]; rfl,
      l.advanced_pending, _, rfl, hhigh⟩

/-- A stuck layout refuses every line and stays stuck. -/
theorem Stuck.place (h : l.Stuck) (hsound : l.Sound) (line : Nat) (text : String) :
    (∃ fault, (l.place line text).result = .error fault)
      ∧ (l.place line text).layout.Stuck := by
  obtain ⟨hstarted, hstill, high, hbase, hhigh⟩ := h
  have hmoved := advanced_of_pending_none hstill
  have hmeets : ∀ {s : Statement} {place : String}, l.Meets s place → place = high := fun hm => by
    cases hm with
    | origin _ hfirst _ =>
      rw [hfirst] at hstarted
      cases hstarted
    | base _ hreached =>
      rw [hbase] at hreached
      exact (Option.some.inj hreached).symm
  have hline := hsound.startLine_place line text
  have hplacing := hsound.placing line text
  rw [hmoved] at hplacing
  generalize l.place line text = p at hplacing hline
  have hstarted' : p.layout.startLine.isSome := by
    rw [hline]
    cases hfirst : l.startLine with
    | none =>
      rw [hfirst] at hstarted
      cases hstarted
    | some first => rfl
  cases hplacing with
  | unread _ => exact ⟨⟨_, rfl⟩, hstarted', hstill, high, hbase, hhigh⟩
  | second _ _ _ => exact ⟨⟨_, rfl⟩, hstarted', hstill, high, hbase, hhigh⟩
  | misgiven _ _ hfirst _ _ =>
    rw [hfirst] at hstarted
    cases hstarted
  | unbased _ _ hunset =>
    rw [hbase] at hunset
    cases hunset
  | settled _ hm hfits =>
    rw [hmeets hm, hhigh] at hfits
    cases hfits
  | beyond _ hm _ =>
    exact ⟨⟨_, rfl⟩, hstarted', hstill, high, congrArg some (hmeets hm), hhigh⟩

theorem Stuck.after (h : l.Stuck) (hsound : l.Sound) (calls : List (Nat × String)) :
    (l.after calls).Stuck := by
  induction calls generalizing l with
  | nil => exact h
  | cons call more ih =>
    exact ih (h.place hsound call.1 call.2).2 (hsound.place call.1 call.2)

/-! ## The trace -/

/-- A layout that some run of numbered lines leads to, whatever became of them. -/
def Reachable (l : Layout) : Prop := ∃ calls, after {} calls = l

theorem Reachable.sound (h : l.Reachable) : l.Sound := by
  obtain ⟨calls, rfl⟩ := h
  exact sound_fresh.after calls

/-- A `START` is one too many only if there was one. -/
theorem Sound.startLine_of_duplicateStart (h : l.Sound) {n first : Nat} {content : String}
    (hp : (l.place line text).result = .error (.duplicateStart n content first)) :
    l.startLine = some first := by
  have hplacing := h.placing line text
  rw [← l.advanced_startLine]
  generalize l.place line text = p at hplacing hp
  cases hplacing with
  | unread hread =>
    cases hp
    cases (Plain.fault_of_read hread).1
  | second _ _ hseen =>
    cases hp
    exact hseen
  | misgiven _ _ _ _ _ => cases hp
  | unbased _ _ _ => cases hp
  | settled _ _ _ => cases hp
  | beyond _ _ _ => cases hp

/-- **A new label shows**: the same line again reports it, and would not have. -/
theorem Sound.label_shows (h : l.Sound) (line : Nat) {name : String}
    (hname : l.introduces text = some name) :
    (l.place line text).layout.outcomes [(line, text)] ≠ l.outcomes [(line, text)] := by
  obtain ⟨hown, hnew⟩ := Option.filter_eq_some_iff.mp hname
  intro hsame
  have hfound : Event.diagnostics ((l.place line text).layout.place line text).events
      = Event.diagnostics (l.place line text).events :=
    congrArg Prod.snd (List.cons.inj hsame).1
  have hagain := ((h.place line text).reportsAgain_iff line text name).mpr ⟨hown, by
    rw [h.lookup_place, if_pos hown]
    cases l.labels.lookup name <;> rfl⟩
  rw [hfound] at hagain
  rw [Option.isNone_iff_eq_none] at hnew
  have hknown := ((h.reportsAgain_iff line text name).mp hagain).2
  rw [hnew] at hknown
  cases hknown

/-- **A first `START` shows**: the same line again is one too many, and would not
have been. -/
theorem Sound.start_shows (h : l.Sound) (line : Nat) (hopens : l.Opens text) :
    (l.place line text).layout.outcomes [(line, text)] ≠ l.outcomes [(line, text)] := by
  obtain ⟨hstart, hnone⟩ := hopens
  intro hsame
  have hresult : ((l.place line text).layout.place line text).result
      = (l.place line text).result := congrArg Prod.fst (List.cons.inj hsame).1
  have hline : (l.place line text).layout.startLine = some line := by
    rw [h.startLine_place, hnone, hstart]
    rfl
  rw [(h.place line text).place_second hline line hstart] at hresult
  have hseen := h.startLine_of_duplicateStart hresult.symm
  rw [hnone] at hseen
  cases hseen

/-- **The trace of a refused line.** A line is refused in a layout that some run
leads to.

* Later lines have the same results and the same diagnostics as if it had never
  come, exactly if it neither brings a label that is new nor is a first `START`.
* Unless it is a first `START`, later lines have the same results in any case,
  and the same diagnostics apart from reports that its label was defined before.
* If it is a first `START` it counts as the `START`: any later one is refused, and
  the fault names this line. If its origin cannot be read, later lines other than
  `START` are not affected, apart from reports of its label. Otherwise its origin
  is too high, and every later line is refused. -/
theorem refused_line_trace (hreach : l.Reachable) {fault : Fault}
    (hp : (l.place line text).result = .error fault) :
    ((∀ later, (l.place line text).layout.outcomes later = l.outcomes later)
        ↔ l.introduces text = none ∧ ¬ l.Opens text)
      ∧ (¬ l.Opens text → ∀ later,
          (l.place line text).layout.outcomesApartFrom (l.introduces text) later
            = l.outcomesApartFrom (l.introduces text) later)
      ∧ (l.Opens text →
          (∀ later n t, Plain.isStart t = true →
            (((l.place line text).layout.after later).place n t).result
              = .error (.duplicateStart n t line))
          ∧ (Plain.BadOrigin text →
              ∀ later, (∀ call ∈ later, Plain.isStart call.2 = false) →
                (l.place line text).layout.outcomesApartFrom (l.introduces text) later
                  = l.outcomesApartFrom (l.introduces text) later)
          ∧ (¬ Plain.BadOrigin text →
              0xFFFFFF < Plain.origin text
              ∧ ∀ later n t, ∃ cause,
                (((l.place line text).layout.after later).place n t).result = .error cause)) := by
  have h := hreach.sound
  have hsound := h.place line text
  have hkept : ¬ l.Opens text → ∀ later,
      (l.place line text).layout.outcomesApartFrom (l.introduces text) later
        = l.outcomesApartFrom (l.introduces text) later := fun hopens later => by
    refine (h.agrees_refused hp (.inl hopens)).outcomes_eq later (.inl ?_)
    rw [h.startLine_place]
    cases hfirst : l.startLine with
    | some first => rfl
    | none =>
      rw [if_neg fun hstart => hopens ⟨hstart, hfirst⟩]
      rfl
  refine ⟨⟨fun hsame => ⟨?_, fun hopens => ?_⟩, fun ⟨hnew, hopens⟩ later => ?_⟩, hkept,
    fun hopens => ⟨fun later n t ht => ?_, fun hbad later hall => ?_, fun hgood => ?_⟩⟩
  · by_contra hnew
    obtain ⟨name, hname⟩ := Option.ne_none_iff_exists'.mp hnew
    exact h.label_shows line hname (hsame _)
  · exact h.start_shows line hopens (hsame _)
  · have hkept := hkept hopens later
    rwa [hnew, outcomesApartFrom_none, outcomesApartFrom_none] at hkept
  · have hline : (l.place line text).layout.startLine = some line := by
      rw [h.startLine_place, hopens.1, hopens.2]
      rfl
    exact (hsound.after later).place_second (hsound.startLine_after hline later) n ht
  · exact (h.agrees_refused hp (.inr hbad)).outcomes_eq later (.inr hall)
  · obtain ⟨hhigh, hstuck⟩ := h.refused_start hp hopens hgood
    exact ⟨hhigh, fun later n t =>
      ((hstuck.after hsound later).place (hsound.after later) n t).1⟩

/-- A second `START` under a label that is known leaves no trace, one under a new
label shows, and a first one that is too high ends everything. One that cannot be read
does not, however long its number is. -/
theorem refused_line_trace_of_starts :
    (∀ later, ((after {} [(1, "P START 0")]).place 2 "P START 5").layout.outcomes later
        = (after {} [(1, "P START 0")]).outcomes later)
      ∧ (¬ ∀ later, ((after {} [(1, "P START 0")]).place 2 "Q START 5").layout.outcomes later
        = (after {} [(1, "P START 0")]).outcomes later)
      ∧ (∀ later n t, ∃ cause,
        (((place {} 1 "P START 1000000").layout.after later).place n t).result = .error cause)
      ∧ ∀ later, (∀ call ∈ later, Plain.isStart call.2 = false) →
        (place {} 1 "P START 1000000G").layout.outcomesApartFrom (some "P") later
          = outcomesApartFrom {} (some "P") later := by
  have hfresh : Reachable {} := ⟨[], rfl⟩
  have hreach : (after {} [(1, "P START 0")]).Reachable := ⟨_, rfl⟩
  have hknown : ((after {} [(1, "P START 0")]).place 2 "P START 5").result
      = .error (.duplicateStart 2 "P START 5" 1) := by decide +kernel
  have hnew : ((after {} [(1, "P START 0")]).place 2 "Q START 5").result
      = .error (.duplicateStart 2 "Q START 5" 1) := by decide +kernel
  have hhigh : (place {} 1 "P START 1000000").result
      = .error (.addressOverflow 1 "P START 1000000" "1000000") := by decide +kernel
  have hunread : (place {} 1 "P START 1000000G").result
      = .error (.hex 1 "P START 1000000G" (.malformed "1000000G")) := by decide +kernel
  refine ⟨(refused_line_trace hreach hknown).1.mpr (by decide +kernel), fun hsame => ?_, ?_, ?_⟩
  · exact absurd ((refused_line_trace hreach hnew).1.mp hsame) (by decide +kernel)
  · have hopens : Opens {} "P START 1000000" := by decide +kernel
    have hgood : ¬ Plain.BadOrigin "P START 1000000" := by
      rintro ⟨-, operand, hop, hbad⟩
      have horigin : Plain.operand? "P START 1000000" = some "1000000" := by decide +kernel
      rw [horigin] at hop
      cases hop
      exact absurd (by decide +kernel) hbad
    exact (((refused_line_trace hfresh hhigh).2.2 hopens).2.2 hgood).2
  · have hopens : Opens {} "P START 1000000G" := by decide +kernel
    have hbad : Plain.BadOrigin "P START 1000000G" :=
      ⟨by decide +kernel, "1000000G", by decide +kernel, by decide +kernel⟩
    have hown : introduces {} "P START 1000000G" = some "P" := by decide +kernel
    have hkept := ((refused_line_trace hfresh hunread).2.2 hopens).2.1 hbad
    rwa [hown] at hkept

/-- **A refused `START` is not forgotten.** Its origin cannot be read, and yet the
next `START` is one too many; without the refused line it would have been
accepted. -/
theorem refused_start_counts :
    (place {} 1 "P START XYZ").result
        = .error (.hex 1 "P START XYZ" (.malformed "XYZ"))
      ∧ (place {} 1 "P START XYZ").layout.outcomes [(2, "P START 1000")]
        = [(.error (.duplicateStart 2 "P START 1000" 1), [⟨2, .duplicateLabel "P" 1⟩])]
      ∧ outcomes {} [(2, "P START 1000")]
        = [(.ok { line := 2, label := some "P", mnemonic := .directive .start
                  operand := some (.literal "1000"), address := some "1000" }, [])] := by
  decide +kernel

end Layout

end TwoPass
