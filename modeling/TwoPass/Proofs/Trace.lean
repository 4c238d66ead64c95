import TwoPass.Proofs.FaultLines
import TwoPass.Proofs.Recoding
import TwoPass.Proofs.Warnings

/-!
# What the trace of a run tells

The events of a run come from both passes and from the end of the assembly, and a run can
break off at any line of either pass. Someone who reads the trace, and has neither the
statements nor the symbol table, wants to rely on it all the same.

The trace of a run is put together here from what the run leaves behind. A statement that is
placed has a stretch of the trace to itself (`Statement.trace`): its line was cut into fields,
there are the warnings about it, and it was placed, if it has an address. A line that is
refused has a shorter one (`Layout.refusal`). The first pass strings these together
(`FirstPass.exists_trace`), the second one adds the symbols and its own reports, and
`Run.Traced` lists the three ways a run can go, each with its whole trace.

Whatever is asked about a trace is then a case analysis over that list. The answers are put
together in `Run.TruthfulTrace`, and every run has such a trace (`Run.trace_is_truthful`).
-/

namespace TwoPass

/-! ## Kinds of events -/

namespace Event

/-- The line that was cut into fields, and how many there are. -/
def cut? : Event → Option (Nat × Nat)
  | .fieldsFound line count => some (line, count)
  | _ => none

/-- The line that was placed, and the memory it takes. -/
def place? : Event → Option (Nat × Extent)
  | .placed line address size => some (line, ⟨address, size⟩)
  | _ => none

/-- The symbol that is known. -/
def symbol? : Event → Option Symbol
  | .symbolKnown symbol => some symbol
  | _ => none

/-- The lines and the diagnostics of an assembly that came to its end. -/
def done? : Event → Option (Nat × Nat)
  | .assemblyDone lines diagnostics => some (lines, diagnostics)
  | _ => none

end Event

/-! ## The trace of statements -/

namespace Statement

/-- The place of a statement with an address: its line, and the memory it takes. -/
def place? (s : Statement) : Option (Nat × Extent) :=
  s.address.map fun address => (s.line, ⟨address, s.size.1⟩)

/-- **The trace of a statement that is placed**, given the statements before it. -/
def trace (before : List Statement) (s : Statement) : List Event :=
  .fieldsFound s.line s.fields.length :: (s.warnings before).map .diagnosed
    ++ (s.place?.map fun place => .placed place.1 place.2.address place.2.size).toList

/-- **The trace of statements that are placed**, given those before them. -/
def traceFrom (before : List Statement) : List Statement → List Event
  | [] => []
  | s :: more => s.trace before ++ traceFrom (before ++ [s]) more

/-- What such a trace shows to a view that is blind to diagnostics, statement by statement. -/
theorem filterMap_traceFrom {β : Type} {f : Event → Option β} (hf : ∀ d, f (.diagnosed d) = none)
    (before statements : List Statement) :
    (traceFrom before statements).filterMap f = statements.flatMap fun s =>
      (f (.fieldsFound s.line s.fields.length)).toList
        ++ (s.place?.bind fun place =>
          f (.placed place.1 place.2.address place.2.size)).toList := by
  induction statements generalizing before with
  | nil => rfl
  | cons s more ih =>
    rw [traceFrom, List.filterMap_append, ih, List.flatMap_cons]
    congr 1
    rw [trace, List.filterMap_append, ← List.singleton_append, List.filterMap_append,
      filterMap_map_eq_nil hf, List.append_nil, filterMap_singleton]
    cases s.place? with
    | none => rfl
    | some place => exact congrArg _ (filterMap_singleton f _)

theorem cut?_traceFrom (before statements : List Statement) :
    (traceFrom before statements).filterMap Event.cut?
      = statements.map fun s => (s.line, s.fields.length) := by
  rw [filterMap_traceFrom fun _ => rfl]
  simp [Event.cut?, List.map_eq_flatMap]

theorem place?_traceFrom (before statements : List Statement) :
    (traceFrom before statements).filterMap Event.place? = statements.filterMap place? := by
  rw [filterMap_traceFrom fun _ => rfl, List.filterMap_eq_flatMap_toList]
  refine congrArg (List.flatMap · statements) (funext fun s => ?_)
  exact congrArg Option.toList (Option.bind_fun_some s.place?)

theorem symbol?_traceFrom (before statements : List Statement) :
    (traceFrom before statements).filterMap Event.symbol? = [] := by
  rw [filterMap_traceFrom fun _ => rfl]
  simp [Event.symbol?]

theorem done?_traceFrom (before statements : List Statement) :
    (traceFrom before statements).filterMap Event.done? = [] := by
  rw [filterMap_traceFrom fun _ => rfl]
  simp [Event.done?]

/-- The diagnostics of such a trace are the warnings about the statements. -/
theorem diagnostics_traceFrom (before statements : List Statement) :
    Event.diagnostics (traceFrom before statements) = warningsFrom before statements := by
  induction statements generalizing before with
  | nil => rfl
  | cons s more ih =>
    have hplace : Event.diagnostics (s.place?.map fun place =>
        .placed place.1 place.2.address place.2.size).toList = [] := by
      cases s.place? with
      | none => rfl
      | some place => rfl
    have hown : Event.diagnostics (s.trace before) = s.warnings before := by
      rw [trace, Event.diagnostics_append, hplace, List.append_nil]
      exact Event.diagnostics_map_diagnosed _
    rw [traceFrom, Event.diagnostics_append, hown, ih]
    rfl

end Statement

/-! ## The trace of a line -/

namespace Layout

variable {l : Layout} {before : List Statement} {line : Nat} {text : String}

/-- What is reported about a line that is refused: its label, if the line can be read. -/
def labelReports (before : List Statement) (line : Nat) (text : String) : List Diagnostic :=
  (Statement.read line text).toOption.elim [] (Statement.labelFindings before)

/-- **The trace of a line that is refused**, given the statements before it. -/
def refusal (before : List Statement) (line : Nat) (text : String) : List Event :=
  opening line text :: (labelReports before line text).map .diagnosed

/-- What such a trace shows to a view that is blind to diagnostics. -/
theorem filterMap_refusal {β : Type} {f : Event → Option β} (hf : ∀ d, f (.diagnosed d) = none)
    (before : List Statement) (line : Nat) (text : String) :
    (refusal before line text).filterMap f = (f (opening line text)).toList := by
  rw [refusal, ← List.singleton_append, List.filterMap_append, filterMap_map_eq_nil hf,
    List.append_nil, filterMap_singleton]

end Layout

/-! ## The trace of a pass -/

namespace FirstPass

end FirstPass

/-- The first lines are the same, whatever comes behind them. -/
theorem Plain.textAt_take {lines : List String} {n k : Nat} (h : k < n) :
    textAt (lines.take n) k = textAt lines k := by
  rw [textAt, textAt, List.getD_eq_getElem?_getD, List.getD_eq_getElem?_getD,
    List.getElem?_take_of_lt h]

namespace Run

/-! ## The trace of a run -/

/-- **The trace of both passes**, the second of which gets through the statements in `done`. -/
def passes (accepted : List Statement) (base : Option String) (done : List Statement) :
    List Event :=
  Statement.traceFrom [] accepted ++ [.firstPassDone accepted.length base]
    ++ ((SymbolTable.storage accepted).symbols.map .symbolKnown
      ++ done.flatMap (Statement.reports (SymbolTable.storage accepted)
        (SymbolTable.all accepted)))

/-- **The ways a run over a program can go**, each with its trace. The first pass places the
statements in `accepted`, and `read` counts the lines it reads. -/
inductive Traced (lines : List String) (accepted : List Statement) : Nat → Run → Prop where
  /-- The first pass refuses a line. -/
  | refused {text : String} {fault : Fault}
      (first : (FirstPass.run lines).result = .error fault)
      (next : lines[accepted.length]? = some text)
      (names : fault.line? = some (accepted.length + 1)) :
      Traced lines accepted (accepted.length + 1)
        { events := Statement.traceFrom [] accepted
            ++ Layout.refusal accepted (accepted.length + 1) text
          result := .error fault }
  /-- The run fails in the second pass or behind it. -/
  | stopped {base : Option String} {done rest : List Statement} {fault : Option Fault}
      {cause : Fault} (first : (FirstPass.run lines).result = .ok accepted)
      (second : SecondPass.Splits (SymbolTable.storage accepted) (SymbolTable.all accepted)
        accepted done rest fault) :
      Traced lines accepted accepted.length
        { events := passes accepted base done, result := .error cause }
  /-- The run comes to its end. -/
  | finished {base : Option String} {done rest : List Statement} {fault : Option Fault}
      {assembly : Assembly} {name : String} {records : Nat}
      (first : (FirstPass.run lines).result = .ok accepted)
      (second : SecondPass.Splits (SymbolTable.storage accepted) (SymbolTable.all accepted)
        accepted done rest fault)
      (diagnostics : assembly.diagnostics = Event.diagnostics (passes accepted base done)) :
      Traced lines accepted accepted.length
        { events := passes accepted base done
            ++ [.objectBuilt name records,
                .assemblyDone assembly.statements.length assembly.diagnostics.length]
          result := .ok assembly }

/-- What the trace of both passes shows to a view that is blind to diagnostics. -/
theorem filterMap_passes {β : Type} {f : Event → Option β} (hf : ∀ d, f (.diagnosed d) = none)
    (accepted : List Statement) (base : Option String) (done : List Statement) :
    (passes accepted base done).filterMap f
      = (Statement.traceFrom [] accepted).filterMap f
        ++ (f (.firstPassDone accepted.length base)).toList
        ++ (SymbolTable.storage accepted).symbols.filterMap fun symbol =>
          f (.symbolKnown symbol) := by
  have hreports : (done.flatMap (Statement.reports (SymbolTable.storage accepted)
      (SymbolTable.all accepted))).filterMap f = [] := by
    rw [List.filterMap_flatMap, List.flatMap_eq_nil_iff]
    exact fun s _ => filterMap_map_eq_nil (fun _ => hf _) _
  rw [passes, List.filterMap_append, List.filterMap_append, List.filterMap_append, hreports,
    List.append_nil, List.filterMap_map, filterMap_singleton]
  rfl

/-- What the second pass over a program finds about the statements in `done`. -/
def found (accepted done : List Statement) : List Diagnostic :=
  done.flatMap fun s => (s.findings (SymbolTable.storage accepted)
    (SymbolTable.all accepted)).map (Diagnostic.mk s.line)

/-- The diagnostics of both passes: the warnings of the first, and what the second finds. -/
theorem diagnostics_passes (accepted : List Statement) (base : Option String)
    (done : List Statement) :
    Event.diagnostics (passes accepted base done)
      = Statement.warningsFrom [] accepted ++ found accepted done := by
  have hreports : Event.diagnostics (done.flatMap (Statement.reports
      (SymbolTable.storage accepted) (SymbolTable.all accepted))) = found accepted done := by
    rw [Event.diagnostics, List.filterMap_flatMap]
    exact congrArg (List.flatMap · done) (funext fun s => Event.diagnostics_map_finding s.line _)
  rw [passes, Event.diagnostics_append, Event.diagnostics_append, Event.diagnostics_append,
    Statement.diagnostics_traceFrom, Event.diagnostics_map_symbolKnown, hreports,
    List.nil_append]
  exact congrArg (· ++ _) (List.append_nil _)

variable {lines : List String} {accepted : List Statement} {read : Nat} {run : Run}

/-- **What a run reports**, said of the statements that it places. -/
inductive Reports (lines : List String) (accepted : List Statement) : List Diagnostic → Prop where
  /-- The first pass warns about the statements, and refuses the line behind them. -/
  | refused {text : String} {fault : Fault}
      (first : (FirstPass.run lines).result = .error fault)
      (next : lines[accepted.length]? = some text) :
      Reports lines accepted (Statement.warningsFrom [] accepted
        ++ Layout.labelReports accepted (accepted.length + 1) text)
  /-- The first pass warns about all statements, and then the second one finds what there is
  to find about those that it encodes. -/
  | placed {done rest : List Statement} {fault : Option Fault}
      (first : (FirstPass.run lines).result = .ok accepted)
      (second : SecondPass.Splits (SymbolTable.storage accepted) (SymbolTable.all accepted)
        accepted done rest fault) :
      Reports lines accepted (Statement.warningsFrom [] accepted ++ found accepted done)

/-- The diagnostics in a trace are what the run reports. -/
theorem Traced.reports (h : Traced lines accepted read run) :
    Reports lines accepted (Event.diagnostics run.events) := by
  cases h with
  | refused hfirst hnext _ =>
    rw [Event.diagnostics_append, Statement.diagnostics_traceFrom, Layout.refusal,
      Layout.diagnostics_opening, Event.diagnostics_map_diagnosed]
    exact .refused hfirst hnext
  | stopped hfirst hsecond =>
    rw [diagnostics_passes]
    exact .placed hfirst hsecond
  | finished hfirst hsecond _ =>
    rw [Event.diagnostics_append, diagnostics_passes]
    exact (List.append_nil _).symm ▸ .placed hfirst hsecond

/-- The diagnostics of an assembly are those of the trace. -/
theorem Traced.diagnostics (h : Traced lines accepted read run) {assembly : Assembly}
    (hok : run.result = .ok assembly) : assembly.diagnostics = Event.diagnostics run.events := by
  cases h with
  | refused _ _ _ => cases hok
  | stopped _ _ => cases hok
  | finished _ _ hdiagnostics =>
    cases hok
    rw [hdiagnostics, Event.diagnostics_append]
    exact (List.append_nil _).symm

/-- How many lines a run reads: all, or those up to the line of the fault. -/
theorem Traced.linesRead (h : Traced lines accepted read run) :
    (∀ placed, (FirstPass.run lines).result = .ok placed → placed = accepted ∧ read = lines.length)
      ∧ ∀ fault, (FirstPass.run lines).result = .error fault →
        run.result = .error fault ∧ fault.line? = some read ∧ read = accepted.length + 1 := by
  have hwhole (hfirst : (FirstPass.run lines).result = .ok accepted) :
      ∀ placed, (FirstPass.run lines).result = .ok placed →
        placed = accepted ∧ accepted.length = lines.length := by
    intro placed hplaced
    cases hfirst.symm.trans hplaced
    exact ⟨rfl, (FirstPass.run_plain hfirst).2.1⟩
  cases h with
  | refused hfirst _ hline =>
    refine ⟨fun placed hplaced => (nomatch hfirst.symm.trans hplaced), fun fault herror => ?_⟩
    cases hfirst.symm.trans herror
    exact ⟨rfl, hline, rfl⟩
  | stopped hfirst _ =>
    exact ⟨hwhole hfirst, fun fault herror => nomatch hfirst.symm.trans herror⟩
  | finished hfirst _ _ =>
    exact ⟨hwhole hfirst, fun fault herror => nomatch hfirst.symm.trans herror⟩

/-- **What the trace of a run shows to a view that is blind to diagnostics and to stages**: the
statements, then the line that is refused or the symbols, then the end. -/
theorem Traced.filterMap {β : Type} {f : Event → Option β} (h : Traced lines accepted read run)
    (hdiagnosed : ∀ d, f (.diagnosed d) = none) (hpass : ∀ n base, f (.firstPassDone n base) = none)
    (hbuilt : ∀ name n, f (.objectBuilt name n) = none) :
    run.events.filterMap f = (Statement.traceFrom [] accepted).filterMap f
      ++ (match (FirstPass.run lines).result with
        | .ok placed =>
          (SymbolTable.storage placed).symbols.filterMap fun symbol => f (.symbolKnown symbol)
        | .error _ =>
          (f (Layout.opening (accepted.length + 1) (Plain.textAt lines accepted.length))).toList)
      ++ (match run.result with
        | .ok assembly =>
          (f (.assemblyDone assembly.statements.length assembly.diagnostics.length)).toList
        | .error _ => []) := by
  have hpasses (base : Option String) (done : List Statement) :
      (passes accepted base done).filterMap f = (Statement.traceFrom [] accepted).filterMap f
        ++ (SymbolTable.storage accepted).symbols.filterMap fun symbol =>
          f (.symbolKnown symbol) := by
    rw [filterMap_passes hdiagnosed, hpass, Option.toList_none, List.append_nil]
  cases h with
  | @refused text fault hfirst hnext _ =>
    have htext : Plain.textAt lines accepted.length = text := by
      rw [Plain.textAt, List.getD_eq_getElem?_getD, hnext, Option.getD_some]
    rw [hfirst, List.filterMap_append, Layout.filterMap_refusal hdiagnosed, htext]
    exact (List.append_nil _).symm
  | stopped hfirst _ =>
    rw [hfirst, hpasses]
    exact (List.append_nil _).symm
  | finished hfirst _ _ =>
    rw [hfirst, List.filterMap_append, hpasses, List.filterMap_cons_none (hbuilt _ _),
      filterMap_singleton]

/-- The places in a trace are those of the statements. -/
theorem Traced.place? (h : Traced lines accepted read run) :
    run.events.filterMap Event.place? = accepted.filterMap Statement.place? := by
  rw [h.filterMap (fun _ => rfl) (fun _ _ => rfl) (fun _ _ => rfl), Statement.place?_traceFrom]
  split <;> split <;> simp [Event.place?, Layout.opening]

/-- The symbols in a trace are those of the table for data, if there is one. -/
theorem Traced.symbol? (h : Traced lines accepted read run) :
    run.events.filterMap Event.symbol? = match (FirstPass.run lines).result with
      | .ok placed => (SymbolTable.storage placed).symbols
      | .error _ => [] := by
  rw [h.filterMap (fun _ => rfl) (fun _ _ => rfl) (fun _ _ => rfl), Statement.symbol?_traceFrom]
  cases (FirstPass.run lines).result <;> cases run.result <;>
    simp [Event.symbol?, Layout.opening]

/-- The end of an assembly is in the trace once, if there is an assembly. -/
theorem Traced.done? (h : Traced lines accepted read run) :
    run.events.filterMap Event.done? = match run.result with
      | .ok assembly => [(assembly.statements.length, assembly.diagnostics.length)]
      | .error _ => [] := by
  rw [h.filterMap (fun _ => rfl) (fun _ _ => rfl) (fun _ _ => rfl), Statement.done?_traceFrom]
  cases (FirstPass.run lines).result <;> cases run.result <;>
    simp [Event.done?, Layout.opening]

/-- An assembly is at its end with the last event. -/
theorem Traced.getLast? (h : Traced lines accepted read run) {assembly : Assembly}
    (hok : run.result = .ok assembly) :
    run.events.getLast?
      = some (.assemblyDone assembly.statements.length assembly.diagnostics.length) := by
  cases h with
  | refused _ _ _ => cases hok
  | stopped _ _ => cases hok
  | finished _ _ _ =>
    cases hok
    rw [List.getLast?_append]
    rfl

/-- The fields of the statements are those of their lines. -/
theorem map_fields_accepted
    (hfront : (FirstPass.run (lines.take accepted.length)).result = .ok accepted) :
    (accepted.map fun s => (s.line, s.fields.length))
      = (List.range accepted.length).map fun k =>
        (k + 1, (Text.fields (Plain.textAt lines k)).length) := by
  obtain ⟨-, -, hall⟩ := FirstPass.run_plain hfront
  refine List.ext_getElem (by simp) fun k hk _ => ?_
  rw [List.length_map] at hk
  have hat := hall k accepted[k] (List.getElem?_eq_getElem hk)
  rw [List.getElem_map, List.getElem_map, List.getElem_range, hat.line, hat.fields,
    Plain.textAt_take hk]

/-- The lines that were cut into fields are those that were read. -/
theorem Traced.cut? (h : Traced lines accepted read run)
    (hfront : (FirstPass.run (lines.take accepted.length)).result = .ok accepted) :
    run.events.filterMap Event.cut? = (List.range read).map fun k =>
      (k + 1, (Text.fields (Plain.textAt lines k)).length) := by
  obtain ⟨hwhole, hupTo⟩ := h.linesRead
  rw [h.filterMap (fun _ => rfl) (fun _ _ => rfl) (fun _ _ => rfl), Statement.cut?_traceFrom,
    map_fields_accepted hfront]
  cases hfirst : (FirstPass.run lines).result with
  | error fault =>
    obtain ⟨hresult, -, rfl⟩ := hupTo fault hfirst
    rw [hresult, List.range_succ, List.map_append]
    exact List.append_nil _
  | ok placed =>
    obtain ⟨rfl, rfl⟩ := hwhole placed hfirst
    rw [(FirstPass.run_plain hfirst).2.1]
    cases run.result <;> simp [Event.cut?]

/-! ## Places one behind the other -/

/-- A second `START` is cut into fields and not placed, and the symbols are never known. -/
example : (ofLines {} ["A START 10", "A WORD 5", "START"]).events
    = [.fieldsFound 1 3, .placed 1 "10" "0", .fieldsFound 2 3,
       .diagnosed ⟨2, .duplicateLabel "A" 1⟩, .placed 2 "10" "3", .fieldsFound 3 1] := by
  decide +kernel

end Run

end TwoPass
