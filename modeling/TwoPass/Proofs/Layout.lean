import TwoPass.Layout
import TwoPass.Proofs.Numerals

/-!
# What a line does to the layout

A line goes through four hands: it is read, its label is defined, it may be the
`START`, and it settles at the base. Each of them can change the layout before a
later one refuses the line, so a statement about the first pass has to follow
every way through.

`Layout.Placing` lists these ways once and for all: two in which the line is
accepted and four in which it is refused, each with the layout it leaves
behind, the events it causes and its result. Whatever is said about the first
pass from here on is a case analysis over that list
(`Layout.placing_placeNext`), and no later proof opens `Layout.placeNext` again.
-/

namespace TwoPass

/-! ## Diagnostics among events -/

namespace Event

@[simp] theorem diagnostics_nil : diagnostics [] = [] := rfl

@[simp] theorem diagnostics_append (a b : List Event) :
    diagnostics (a ++ b) = diagnostics a ++ diagnostics b :=
  List.filterMap_append

@[simp] theorem diagnostics_map_diagnosed (found : List Diagnostic) :
    diagnostics (found.map .diagnosed) = found := by
  rw [diagnostics, List.filterMap_map]
  exact List.filterMap_some

theorem diagnostics_map_finding (line : Nat) (findings : List Finding) :
    diagnostics (findings.map fun f => .diagnosed ⟨line, f⟩) = findings.map (Diagnostic.mk line) := by
  rw [← diagnostics_map_diagnosed (findings.map _), List.map_map]
  rfl

theorem diagnostics_map_symbolKnown (symbols : List Symbol) :
    diagnostics (symbols.map .symbolKnown) = [] := by
  simp [diagnostics, List.filterMap_map, Function.comp_def, diagnostic?]

@[simp] theorem diagnostics_diagnosed (d : Diagnostic) : diagnostics [.diagnosed d] = [d] := rfl

@[simp] theorem diagnostics_placed (line : Nat) (address size : String) :
    diagnostics [.placed line address size] = [] := rfl

end Event

/-! ## Statements as they are read -/

namespace Statement

theorem line_of_read {line : Nat} {text : String} {s : Statement}
    (h : read line text = .ok s) : s.line = line ∧ s.address = none ∧ s.code = none := by
  unfold read at h
  split at h
  · cases h; exact ⟨rfl, rfl, rfl⟩
  · cases h; exact ⟨rfl, rfl, rfl⟩
  · cases h; exact ⟨rfl, rfl, rfl⟩
  · cases h

/-- The size of a statement as a number of bytes. -/
def bytes (s : Statement) : Nat := Hex.value s.size.1

/-- A reservation is written as a numeral: the count is cut down to one. -/
theorem isNumeral_reserve (s : Statement) (unit : Nat) : Hex.IsNumeral (s.reserve unit).1 := by
  unfold reserve
  split
  · refine (Hex.isNumeral_render _).mpr (lt_of_le_of_lt (Nat.min_le_right _ _) ?_)
    decide
  · show Hex.IsNumeral "3"
    decide

/-- **Every size is a numeral.** -/
theorem isNumeral_size (s : Statement) : Hex.IsNumeral s.size.1 := by
  unfold size
  split
  · decide
  · decide
  · exact s.isNumeral_reserve 3
  · exact s.isNumeral_reserve 1
  · decide

/-- The origin a `START` gives: the value of its operand, or zero if it has
none. An operand that is no numeral gives no origin. -/
def origin? (s : Statement) : Option Nat :=
  match s.operand with
  | some (.literal origin) => if Hex.IsNumeral origin then some (Hex.value origin) else none
  | _ => some 0

/-- What a `START` is told about its origin. -/
def originFindings (s : Statement) : List Diagnostic :=
  match s.operand with
  | some (.literal _) => []
  | _ => [⟨s.line, .missingOrigin⟩]

/-- A missing origin is all that a `START` is told about. -/
theorem finding_of_mem_originFindings {s : Statement} {d : Diagnostic}
    (h : d ∈ s.originFindings) : d.finding = .missingOrigin := by
  unfold originFindings at h
  split at h
  · cases h
  · rw [List.mem_singleton.mp h]

/-- A count that cannot be read is all that is said about a size. -/
theorem finding_of_mem_size {s : Statement} {d : Diagnostic} (h : d ∈ s.size.2) :
    ∃ mnemonic operand, d.finding = .badReserveCount mnemonic operand := by
  have hreserve : ∀ unit, d ∈ (s.reserve unit).2 →
      ∃ mnemonic operand, d.finding = .badReserveCount mnemonic operand := by
    intro unit hd
    unfold reserve at hd
    split at hd
    · cases hd
    · rw [List.mem_singleton.mp hd]
      exact ⟨_, _, rfl⟩
  unfold size at h
  split at h
  · cases h
  · cases h
  · exact hreserve 3 h
  · exact hreserve 1 h
  · cases h

/-- An origin is a numeral's value. -/
theorem origin?_lt {s : Statement} {v : Nat} (h : s.origin? = some v) : v < 2 ^ 32 := by
  unfold origin? at h
  split at h
  · split at h
    · next hnum =>
      cases h
      exact hnum.2.2
    · cases h
  · cases h
    decide

/-- An operand that is no numeral gives no origin. -/
theorem origin?_eq_none {s : Statement} {origin : String}
    (hop : s.operand = some (.literal origin)) (hbad : ¬ Hex.IsNumeral origin) :
    s.origin? = none := by
  unfold origin?
  rw [hop]
  exact if_neg hbad

end Statement

namespace Layout

/-! ## The parts of a step -/

/-- The labels known after a statement. -/
def labelsAfter (l : Layout) (s : Statement) : List (String × Nat) := (l.define s).1.labels

/-- Defining a label changes the labels and nothing else. -/
theorem define_fst (l : Layout) (s : Statement) :
    (l.define s).1 = { l with labels := l.labelsAfter s } := by
  unfold labelsAfter define
  split
  · rfl
  · split <;> rfl

/-- A label that is defined again is all that `define` reports. -/
theorem finding_of_mem_define {l : Layout} {s : Statement} {d : Diagnostic}
    (h : d ∈ (l.define s).2) : ∃ label first, d.finding = .duplicateLabel label first := by
  unfold define at h
  split at h
  · exact absurd h List.not_mem_nil
  · split at h
    · rw [List.mem_singleton] at h
      subst h
      exact ⟨_, _, rfl⟩
    · exact absurd h List.not_mem_nil

theorem start_of_not_isStart (l : Layout) {s : Statement} (text : String)
    (h : s.isStart = false) : l.start s text = (l, [], .ok ()) := by
  unfold start
  rw [h]
  rfl

theorem start_of_second {l : Layout} {s : Statement} (text : String) {first : Nat}
    (h : s.isStart = true) (hl : l.startLine = some first) :
    l.start s text = (l, [], .error (.duplicateStart s.line text first)) := by
  unfold start
  rw [h, hl]
  rfl

/-- A first `START` with an origin moves the base there. -/
theorem start_of_origin {l : Layout} {s : Statement} (text : String) {v : Nat}
    (h : s.isStart = true) (hl : l.startLine = none) (hv : s.origin? = some v) :
    l.start s text
      = ({ l with startLine := some s.line, base := some (Hex.render v) },
          s.originFindings, .ok ()) := by
  have hzero : Hex.render 0 = "0" := by decide
  unfold Statement.origin? at hv
  unfold start Statement.originFindings
  rw [if_pos h, hl]
  generalize s.operand = operand at hv ⊢
  split at hv
  · next origin =>
    split at hv
    · next hnum =>
      cases hv
      simp only [Hex.parse_eq_ok hnum]
    · cases hv
  · cases hv
    simp only [hzero]

/-- A first `START` without a readable origin counts as seen all the same. -/
theorem start_of_bad_origin {l : Layout} {s : Statement} (text : String)
    (h : s.isStart = true) (hl : l.startLine = none) (hv : s.origin? = none) :
    ∃ origin, s.operand = some (.literal origin) ∧ ¬ Hex.IsNumeral origin ∧
      l.start s text
        = ({ l with startLine := some s.line }, [],
            .error (.hex s.line text (.malformed origin))) := by
  unfold Statement.origin? at hv
  split at hv
  · next origin hop =>
    split at hv
    · cases hv
    · next hnum =>
      refine ⟨origin, hop, hnum, ?_⟩
      unfold start
      rw [if_pos h, hl]
      simp only [hop, Hex.parse_eq_error hnum]
  · cases hv

/-- Where a statement would lie: `START` at its origin, any other statement at
the base. -/
inductive Meets (l : Layout) (s : Statement) : String → Prop where
  /-- The statement is the first `START` and gives an origin. -/
  | origin {v : Nat} (start : s.isStart = true) (first : l.startLine = none)
      (given : s.origin? = some v) : Meets l s (Hex.render v)
  /-- The statement goes where the base is. -/
  | base {text : String} (start : s.isStart = false) (reached : l.base = some text) :
      Meets l s text

/-- The line of the `START` after a statement that was not refused. -/
def startLineAfter (l : Layout) (s : Statement) : Option Nat :=
  if s.isStart then some s.line else l.startLine

/-- What a statement is told before it is placed. -/
def findingsBefore (l : Layout) (s : Statement) : List Diagnostic :=
  (l.define s).2 ++ if s.isStart then s.originFindings else []

/-! ## What can become of a line -/

/-- The event that opens every line. -/
def opening (line : Nat) (text : String) : Event :=
  .fieldsFound line (Text.fields text).length

@[simp] theorem diagnostics_opening (line : Nat) (text : String) (events : List Event) :
    Event.diagnostics (opening line text :: events) = Event.diagnostics events := rfl

/-- **What can become of a line** once the base has moved. -/
inductive Placing (l : Layout) (line : Nat) (text : String) : Placement → Prop where
  /-- The line cannot be read. -/
  | unread {fault : Fault} (read : Statement.read line text = .error fault) :
      Placing l line text
        { layout := l, events := [opening line text], result := .error fault }
  /-- The line is one `START` too many. -/
  | second {s : Statement} {first : Nat} (read : Statement.read line text = .ok s)
      (start : s.isStart = true) (seen : l.startLine = some first) :
      Placing l line text
        { layout := { l with labels := l.labelsAfter s }
          events := opening line text :: (l.define s).2.map .diagnosed
          result := .error (.duplicateStart line text first) }
  /-- The line is the first `START`, and its origin is no numeral. -/
  | misgiven {s : Statement} {origin : String} (read : Statement.read line text = .ok s)
      (start : s.isStart = true) (first : l.startLine = none)
      (operand : s.operand = some (.literal origin)) (bad : ¬ Hex.IsNumeral origin) :
      Placing l line text
        { layout := { l with startLine := some line, labels := l.labelsAfter s }
          events := opening line text :: (l.define s).2.map .diagnosed
          result := .error (.hex line text (.malformed origin)) }
  /-- The line is no `START`, and there is no base yet. -/
  | unbased {s : Statement} (read : Statement.read line text = .ok s)
      (start : s.isStart = false) (unset : l.base = none) :
      Placing l line text
        { layout := { l with base := some "0", labels := l.labelsAfter s }
          events := opening line text :: (l.findingsBefore s).map .diagnosed
            ++ [.diagnosed ⟨line, .missingStart⟩]
          result := .ok s }
  /-- The line takes its place. -/
  | settled {s : Statement} {base : String} (read : Statement.read line text = .ok s)
      (meets : l.Meets s base) (fits : isAddress base = true) :
      Placing l line text
        { layout :=
            { base := some base, pending := some ⟨base, s.size.1⟩
              startLine := l.startLineAfter s, labels := l.labelsAfter s }
          events := opening line text :: (l.findingsBefore s).map .diagnosed
            ++ (s.size.2.map .diagnosed ++ [.placed line base s.size.1])
          result := .ok { s with address := some base } }
  /-- The place of the line lies above the highest address. -/
  | beyond {s : Statement} {base : String} (read : Statement.read line text = .ok s)
      (meets : l.Meets s base) (high : isAddress base = false) :
      Placing l line text
        { layout :=
            { base := some base, pending := l.pending
              startLine := l.startLineAfter s, labels := l.labelsAfter s }
          events := opening line text :: (l.findingsBefore s).map .diagnosed
          result := .error (.addressOverflow line text base) }

/-- A statement that meets a base is settled there, or lies beyond. -/
theorem placing_of_meets {l : Layout} {line : Nat} {text : String} {s : Statement}
    {base : String} (hread : Statement.read line text = .ok s) (hmeets : l.Meets s base)
    (hstart : (l.define s).1.start s text
      = ({ base := some base, pending := l.pending, startLine := l.startLineAfter s
           labels := l.labelsAfter s }, if s.isStart then s.originFindings else [], .ok ())) :
    l.Placing line text (l.placeNext line text) := by
  obtain rfl := (Statement.line_of_read hread).1
  unfold placeNext
  simp only [hread, hstart, settle]
  by_cases hfits : isAddress base = true
  · simp only [if_pos hfits]
    exact .settled hread hmeets hfits
  · simp only [if_neg hfits, List.append_nil]
    exact .beyond hread hmeets (by simpa using hfits)

/-- **The list is complete.** -/
theorem placing_placeNext (l : Layout) (line : Nat) (text : String) :
    l.Placing line text (l.placeNext line text) := by
  cases hread : Statement.read line text with
  | error fault =>
    unfold placeNext
    simp only [hread]
    exact .unread hread
  | ok s =>
    obtain rfl := (Statement.line_of_read hread).1
    cases hs : s.isStart with
    | false =>
      have hstart : (l.define s).1.start s text
          = ({ l with labels := l.labelsAfter s }, [], .ok ()) := by
        rw [start_of_not_isStart _ text hs, define_fst]
      cases hbase : l.base with
      | none =>
        have hfound : l.findingsBefore s = (l.define s).2 ++ [] := by
          rw [findingsBefore, hs]; rfl
        unfold placeNext
        simp only [hread, hstart, settle, hbase, ← hfound]
        exact .unbased hread hs hbase
      | some base =>
        refine placing_of_meets hread (.base hs hbase) ?_
        rw [hstart, startLineAfter, hs, ← hbase]
        rfl
    | true =>
      cases hl : l.startLine with
      | some first =>
        have hstart := start_of_second (l := (l.define s).1) text hs (by rw [define_fst, hl])
        unfold placeNext
        simp only [hread, hstart, List.append_nil]
        rw [define_fst]
        exact .second hread hs hl
      | none =>
        have hfirst : (l.define s).1.startLine = none := by rw [define_fst, hl]
        cases hv : s.origin? with
        | none =>
          obtain ⟨origin, hop, hbad, hstart⟩ := start_of_bad_origin text hs hfirst hv
          unfold placeNext
          simp only [hread, hstart, List.append_nil]
          rw [define_fst]
          exact .misgiven hread hs hl hop hbad
        | some v =>
          refine placing_of_meets hread (.origin hs hl hv) ?_
          rw [start_of_origin text hs hfirst hv, define_fst, startLineAfter, hs]
          rfl

/-! ## The ways exclude each other -/

section Unique

variable {l : Layout} {s : Statement}

/-- A `START` that has a place is the first one and gives an origin. -/
theorem Meets.of_isStart {base : String} (h : l.Meets s base) (hs : s.isStart = true) :
    l.startLine = none ∧ ∃ v, s.origin? = some v ∧ base = Hex.render v := by
  cases h with
  | origin _ hfirst hv => exact ⟨hfirst, _, hv, rfl⟩
  | base hother _ =>
    rw [hs] at hother
    cases hother

/-- Any other statement has its place at the base. -/
theorem Meets.of_not_isStart {base : String} (h : l.Meets s base) (hs : s.isStart = false) :
    l.base = some base := by
  cases h with
  | origin hother _ _ =>
    rw [hs] at hother
    cases hother
  | base _ hbase => exact hbase

/-- A statement has one place. -/
theorem Meets.unique {a b : String} (ha : l.Meets s a) (hb : l.Meets s b) : a = b := by
  cases hs : s.isStart with
  | true =>
    obtain ⟨-, v, hv, rfl⟩ := ha.of_isStart hs
    obtain ⟨-, w, hw, rfl⟩ := hb.of_isStart hs
    rw [hv] at hw
    rw [Option.some.inj hw]
  | false =>
    have ha := ha.of_not_isStart hs
    rw [hb.of_not_isStart hs] at ha
    exact (Option.some.inj ha).symm

/-- **A line goes one way only.** So what becomes of it is settled as soon as one
of the six is known to be open to it. -/
theorem Placing.unique {line : Nat} {text : String} {p q : Placement}
    (hp : l.Placing line text p) (hq : l.Placing line text q) : p = q := by
  -- two different ways disagree on the reading, the `START`, the origin or the base
  cases hp <;> cases hq <;>
    grind [Meets.unique, Meets.of_isStart, Meets.of_not_isStart, Statement.origin?_eq_none]

end Unique

end Layout

end TwoPass
