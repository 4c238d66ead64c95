import TwoPass.Command.Run
import TwoPass.Proofs.Paths
import TwoPass.Proofs.References

/-!
# What a command leaves behind

A command reads twice and assembles once, and everything it writes comes from that
assembly (`Command.assembly?`). If there is none, for whatever reason, the command fails
before its first write (`Command.outcome_of_none`). If there is one, the writes
are known before the first of them is made, and only the system decides how many succeed.

What is left behind then follows from the actions alone. Telling something does not touch
the files, and saving something stops the rest if it fails, so the texts that were saved
are a first part of those that should have been (`Command.exists_saved`). The files are
read off that part: `FileTree.Saves.content?_eq` says what each of them holds.

All of this holds with any toolkit and under any access that the system grants.
-/

namespace TwoPass

namespace Command

variable {kit : Toolkit} {access : Access} {files : FileTree} {options : Options}

/-! ## The assembly of a command -/

/-- The settings a command loads: those of its settings file, and the usual ones if it has
none. -/
def loaded? (kit : Toolkit) (access : Access) (files : FileTree) (options : Options) :
    Option Settings :=
  match options.config with
  | none => some {}
  | some path => (files.readText access path).toOption.bind fun text => (kit.settings text).toOption

/-- **The assembly of a command**: that of its source text, under the settings it loads. It
is strict if the settings or the options say so. -/
def assembly? (kit : Toolkit) (access : Access) (files : FileTree) (options : Options) :
    Option Assembly := do
  let loaded ← loaded? kit access files options
  let source ← (files.readText access options.input).toOption
  (assembleText { loaded with strict := loaded.strict || options.strict } source).toOption

/-- **What a command has to save**: the listing and the object program under the name of
the source, and the report if there is a file for it. -/
def saves (kit : Toolkit) (options : Options) (stem : String) (assembly : Assembly) :
    List (String × String) :=
  [(Path.join (folder options) (kit.shown stem ++ ".txt"), assembly.listing),
   (Path.join (folder options) (kit.shown stem ++ ".obj"), assembly.object.render)]
    ++ options.diagnostics.toList.map fun path =>
      (path, kit.report (assembly.diagnostics.map Diagnostic.report))

/-- A text is the line of a log entry. -/
def IsLogLine (kit : Toolkit) (options : Options) (text : String) : Prop :=
  ∃ entry, kit.log options.verbose entry = some text

/-! ## Actions -/

/-- The actions of a command on a tree of files. -/
def actions (kit : Toolkit) (access : Access) (files : FileTree) (options : Options) :
    List Action :=
  Id.run (plan kit (fun path => pure (files.readText access path)) options)

theorem isLogLine_of_mem {entry : LogEntry} {text : String}
    (h : text ∈ (kit.log options.verbose entry).toList) : IsLogLine kit options text :=
  ⟨entry, Option.mem_toList.mp h⟩

/-- The settings that the actions go by. -/
theorem settings_eq (kit : Toolkit) (access : Access) (files : FileTree) (options : Options) :
    (settings kit options
        (options.config.map fun path => (path, files.readText access path))).toOption
      = (loaded? kit access files options).map fun loaded =>
          { loaded with strict := loaded.strict || options.strict } := by
  unfold loaded?
  cases options.config with
  | none => rfl
  | some path =>
    simp only [Option.map_some, settings]
    cases files.readText access path with
    | error fault => rfl
    | ok text =>
      simp only [Except.toOption, Option.bind_some]
      cases kit.settings text with
      | error cause => rfl
      | ok settings => rfl

theorem actions_eq (kit : Toolkit) (access : Access) (files : FileTree) (options : Options) :
    actions kit access files options
      = match settings kit options
          (options.config.map fun path => (path, files.readText access path)) with
        | .error failure => [.fail failure]
        | .ok settings => assemble kit options settings (files.readText access options.input) := by
  unfold actions plan
  cases options.config with
  | none => rfl
  | some path =>
    simp only [Option.mapM_some, Option.map_some]
    cases hsettings : settings kit options (some (path, files.readText access path)) with
    | error failure => simp [hsettings]
    | ok settings => simp [hsettings]

/-- The actions behind a source text: the log is told, and then the assembly decides. -/
theorem exists_assemble_eq (kit : Toolkit) (options : Options) (settings : Settings)
    (source : String) :
    ∃ texts : List String, (∀ text ∈ texts, IsLogLine kit options text)
      ∧ assemble kit options settings (.ok source)
        = texts.map .tell ++ match assembleText settings source with
          | .error fault =>
            [.fail { message := fault.message, cause := fault.cause?.map HexFault.message }]
          | .ok assembly =>
            assembly.diagnostics.map (.tell ·.render) ++ output kit options assembly := by
  refine ⟨(kit.log options.verbose
      { level := .info, target := "sicasm", message := "loaded source"
        values := [("input", .plain (kit.shown options.input))] }).toList
    ++ (Run.ofLines settings (Text.lines source)).events.flatMap fun event =>
      (kit.log options.verbose event.entry).toList, fun text htext => ?_, ?_⟩
  · rcases List.mem_append.mp htext with htext | htext
    · exact isLogLine_of_mem htext
    · obtain ⟨event, -, htext⟩ := List.mem_flatMap.mp htext
      exact isLogLine_of_mem htext
  · rw [List.map_append, List.map_flatMap]
    rfl

/-- **The actions of a command.** The log is told. Without an assembly the command fails
next, and with one it tells the diagnostics and goes on to its writes. -/
theorem exists_actions_eq (kit : Toolkit) (access : Access) (files : FileTree)
    (options : Options) :
    ∃ texts : List String, (∀ text ∈ texts, IsLogLine kit options text)
      ∧ ((assembly? kit access files options = none
          ∧ ∃ failure, actions kit access files options = texts.map .tell ++ [.fail failure])
        ∨ ∃ assembly, assembly? kit access files options = some assembly
          ∧ actions kit access files options = texts.map .tell
            ++ (assembly.diagnostics.map (.tell ·.render) ++ output kit options assembly)) := by
  have hsettings := settings_eq kit access files options
  rw [actions_eq]
  unfold assembly?
  cases hown : settings kit options
      (options.config.map fun path => (path, files.readText access path)) with
  | error failure =>
    rw [hown] at hsettings
    rw [Option.map_eq_none_iff.mp hsettings.symm]
    exact ⟨[], by simp, .inl ⟨rfl, failure, rfl⟩⟩
  | ok settings =>
    rw [hown] at hsettings
    obtain ⟨loaded, hloaded, rfl⟩ := Option.map_eq_some_iff.mp hsettings.symm
    rw [hloaded]
    cases files.readText access options.input with
    | error fault => exact ⟨[], by simp, .inl ⟨rfl, _, rfl⟩⟩
    | ok source =>
      obtain ⟨texts, hlog, hactions⟩ := exists_assemble_eq kit options
        { loaded with strict := loaded.strict || options.strict } source
      refine ⟨texts, hlog, ?_⟩
      simp only [hactions, Except.toOption, Option.bind_eq_bind, Option.bind_some]
      cases assembleText { loaded with strict := loaded.strict || options.strict } source with
      | error fault => exact .inl ⟨rfl, _, rfl⟩
      | ok assembly => exact .inr ⟨assembly, rfl, rfl⟩

/-! ## Carrying actions out -/

/-- The outcome of a command on a tree of files. -/
def outcome (kit : Toolkit) (access : Access) (files : FileTree) (options : Options) : Outcome :=
  perform kit access files (actions kit access files options)

theorem run_assemble (kit : Toolkit) (access : Access) (files : FileTree) (options : Options) :
    run kit access files (.assemble options) = outcome kit access files options := rfl

/-- What an action saves. -/
def Action.save? : Action → Option (String × String)
  | .save path content => some (path, content)
  | _ => none

/-- What an action tells. -/
def Action.tell? : Action → Option String
  | .tell text => some text
  | _ => none

/-- Telling comes before whatever follows and changes nothing else. -/
theorem perform_tell_append (kit : Toolkit) (access : Access) (files : FileTree)
    (texts : List String) (more : List Action) :
    perform kit access files (texts.map .tell ++ more)
      = { perform kit access files more with
          told := texts ++ (perform kit access files more).told } := by
  induction texts with
  | nil => rfl
  | cons text others ih =>
    rw [List.map_cons, List.cons_append, perform, ih]
    rfl

theorem perform_save_of_fault {path content : String} {fault : FileFault} {more : List Action}
    (h : (files.write access path content.toUTF8).fault = some fault) :
    perform kit access files (.save path content :: more)
      = { status := 1, told := [kit.failure (saveFailure kit path fault)]
          files := (files.write access path content.toUTF8).files } := by
  rw [perform]
  generalize files.write access path content.toUTF8 = attempt at h ⊢
  obtain ⟨after, found⟩ := attempt
  cases h
  rfl

theorem perform_save_of_none {path content : String} {more : List Action}
    (h : (files.write access path content.toUTF8).fault = none) :
    perform kit access files (.save path content :: more)
      = perform kit access (files.write access path content.toUTF8).files more := by
  rw [perform]
  generalize files.write access path content.toUTF8 = attempt at h ⊢
  obtain ⟨after, found⟩ := attempt
  cases h
  rfl

/-- **What is left behind by actions that do not fail by themselves.** The texts to be saved
are saved up to the first that cannot be, and trying that one ends the command. -/
theorem exists_saved {actions : List Action} (h : ∀ failure, .fail failure ∉ actions) :
    ∃ done rest saved, actions.filterMap Action.save? = done ++ rest
      ∧ FileTree.Saves access files done saved
      ∧ (rest = [] ∧ (perform kit access files actions).files = saved
          ∧ (perform kit access files actions).status = 0
          ∧ (perform kit access files actions).told = actions.filterMap Action.tell?
        ∨ ∃ save more, rest = save :: more
          ∧ (saved.write access save.1 save.2.toUTF8).fault ≠ none
          ∧ (perform kit access files actions).files
            = (saved.write access save.1 save.2.toUTF8).files
          ∧ (perform kit access files actions).status = 1
          ∧ ∀ text ∈ (perform kit access files actions).told,
            text ∈ actions.filterMap Action.tell? ∨ ∃ failure, text = kit.failure failure) := by
  induction actions generalizing files with
  | nil => exact ⟨[], [], files, rfl, .none, .inl ⟨rfl, rfl, rfl, rfl⟩⟩
  | cons action more ih =>
    have hmore : ∀ failure, .fail failure ∉ more :=
      fun failure hmem => h failure (List.mem_cons_of_mem action hmem)
    cases action with
    | tell text =>
      obtain ⟨done, rest, saved, hsaves, hfiles, hend⟩ := @ih files hmore
      refine ⟨done, rest, saved, hsaves, hfiles, ?_⟩
      rw [perform]
      rcases hend with ⟨hrest, hafter, hstatus, htold⟩
        | ⟨save, others, hrest, hfault, hafter, hstatus, htold⟩
      · exact .inl ⟨hrest, hafter, hstatus, congrArg (text :: ·) htold⟩
      · refine .inr ⟨save, others, hrest, hfault, hafter, hstatus, fun told hmem => ?_⟩
        rcases List.mem_cons.mp hmem with rfl | hmem
        · exact .inl List.mem_cons_self
        · exact (htold told hmem).imp_left (List.mem_cons_of_mem text)
    | save path content =>
      cases hwrite : (files.write access path content.toUTF8).fault with
      | some fault =>
        rw [perform_save_of_fault hwrite]
        refine ⟨[], (path, content) :: more.filterMap Action.save?, files, rfl, .none,
          .inr ⟨(path, content), _, rfl, hwrite ▸ Option.some_ne_none fault, rfl, rfl,
            fun told hmem => ?_⟩⟩
        exact .inr ⟨_, List.mem_singleton.mp hmem⟩
      | none =>
        rw [perform_save_of_none hwrite]
        obtain ⟨done, rest, saved, hsaves, hfiles, hend⟩ := @ih _ hmore
        exact ⟨(path, content) :: done, rest, saved, congrArg ((path, content) :: ·) hsaves,
          .next hwrite hfiles, hend⟩
    | fail failure => exact absurd List.mem_cons_self (h failure)

/-! ## The writes of a command -/

/-- **The writes of a command** whose source has a name: those it has to make, in order, with
nothing but the log between them. -/
theorem output_of_stem {stem : String} (h : Path.stem? options.input = some stem)
    (kit : Toolkit) (assembly : Assembly) :
    (output kit options assembly).filterMap Action.save? = saves kit options stem assembly
      ∧ (∀ failure, .fail failure ∉ output kit options assembly)
      ∧ ∀ text ∈ (output kit options assembly).filterMap Action.tell?,
        IsLogLine kit options text := by
  unfold output
  rw [h]
  simp only [logPath, log]
  refine ⟨?_, ?_, fun text htext => ?_⟩
  · have htold : ∀ texts : List String, (texts.map Action.tell).filterMap Action.save? = [] := by
      intro texts
      simp [List.filterMap_map, Function.comp_def, Action.save?]
    simp [htold, saves, Action.save?, List.filterMap_map, Function.comp_def]
    exact ⟨rfl, rfl⟩
  · intro failure
    simp
  · obtain ⟨action, haction, htell⟩ := List.mem_filterMap.mp htext
    simp only [List.cons_append, List.mem_cons, List.mem_append, List.mem_map, List.append_assoc,
      Option.mem_toList] at haction
    rcases haction with rfl | ⟨own, hown, rfl⟩ | rfl | ⟨own, hown, rfl⟩ | ⟨path, -, rfl⟩
    · cases htell
    · cases htell
      exact ⟨_, hown⟩
    · cases htell
    · cases htell
      exact ⟨_, hown⟩
    · cases htell

/-- A source that can be read has a name. -/
theorem exists_stem_of_readText {source : String}
    (h : files.readText access options.input = .ok source) :
    ∃ stem, Path.stem? options.input = some stem := by
  obtain ⟨names, hlead⟩ := FileTree.exists_lead_of_readText h
  obtain ⟨-, -, name, hname, -⟩ := FileTree.exists_lead_beside hlead
  exact ⟨_, by rw [Path.stem?, hname]; rfl⟩

/-- A command with an assembly has read its source. -/
theorem exists_readText_of_assembly? {assembly : Assembly}
    (h : assembly? kit access files options = some assembly) :
    ∃ source, files.readText access options.input = .ok source := by
  obtain ⟨loaded, -, h⟩ := Option.bind_eq_some_iff.mp h
  obtain ⟨source, hsource, -⟩ := Option.bind_eq_some_iff.mp h
  exact ⟨source, eq_ok_of_toOption hsource⟩

/-- The assembly of a command without a settings file. -/
theorem assembly?_of_source {source : String} {assembly : Assembly}
    (hconfig : options.config = none) (hread : files.readText access options.input = .ok source)
    (hassembly : assembleText { strict := options.strict } source = .ok assembly) :
    assembly? kit access files options = some assembly := by
  unfold assembly? loaded?
  rw [hconfig, hread]
  simp only [Except.toOption, Option.bind_eq_bind, Option.bind_some, Bool.false_or, hassembly]

/-- **A command without an assembly** fails and leaves the files alone. -/
theorem outcome_of_none (h : assembly? kit access files options = none) :
    (outcome kit access files options).status = 1
      ∧ (outcome kit access files options).files = files := by
  obtain ⟨texts, -, ⟨-, failure, hactions⟩ | ⟨assembly, hsome, -⟩⟩ :=
    exists_actions_eq kit access files options
  · rw [outcome, hactions, perform_tell_append]
    exact ⟨rfl, rfl⟩
  · rw [h] at hsome
    cases hsome

/-- **A command with an assembly** saves what it has to, up to the first write that fails,
and tells the diagnostics before. -/
theorem outcome_of_some {assembly : Assembly}
    (h : assembly? kit access files options = some assembly) :
    ∃ stem done rest saved, Path.stem? options.input = some stem
      ∧ saves kit options stem assembly = done ++ rest
      ∧ FileTree.Saves access files done saved
      ∧ (rest = [] → (outcome kit access files options).files = saved
          ∧ (outcome kit access files options).status = 0)
      ∧ (∀ save more, rest = save :: more →
          (saved.write access save.1 save.2.toUTF8).fault ≠ none
          ∧ (outcome kit access files options).files
            = (saved.write access save.1 save.2.toUTF8).files
          ∧ (outcome kit access files options).status = 1)
      ∧ ∃ before behind, (outcome kit access files options).told
          = before ++ assembly.diagnostics.map Diagnostic.render ++ behind
        ∧ (∀ text ∈ before, IsLogLine kit options text)
        ∧ ∀ text ∈ behind, IsLogLine kit options text
          ∨ rest ≠ [] ∧ ∃ failure, text = kit.failure failure := by
  obtain ⟨texts, hlog, ⟨hnone, -⟩ | ⟨found, hfound, hactions⟩⟩ :=
    exists_actions_eq kit access files options
  · rw [h] at hnone
    cases hnone
  · obtain rfl : assembly = found := Option.some.inj (h.symm.trans hfound)
    obtain ⟨source, hsource⟩ := exists_readText_of_assembly? h
    obtain ⟨stem, hstem⟩ := exists_stem_of_readText hsource
    obtain ⟨hsaves, hfail, htells⟩ := output_of_stem hstem kit assembly
    obtain ⟨done, rest, saved, hparts, hfiles, hend⟩ := @exists_saved kit access files _ hfail
    have hdiagnostics : (assembly.diagnostics.map (Action.tell ·.render) : List Action)
        = (assembly.diagnostics.map Diagnostic.render).map .tell := by
      rw [List.map_map]
      rfl
    rw [outcome, hactions, hdiagnostics, perform_tell_append, perform_tell_append]
    refine ⟨stem, done, rest, saved, hstem, hsaves.symm.trans hparts, hfiles, ?_, ?_,
      texts, (perform kit access files (output kit options assembly)).told,
      (List.append_assoc _ _ _).symm, hlog, fun text htext => ?_⟩
    · rintro rfl
      rcases hend with ⟨-, hafter, hstatus, -⟩ | ⟨save, more, hrest, -⟩
      · exact ⟨hafter, hstatus⟩
      · cases hrest
    · rintro save more rfl
      rcases hend with ⟨hrest, -⟩ | ⟨first, others, hrest, hfault, hafter, hstatus, -⟩
      · cases hrest
      · obtain ⟨rfl, -⟩ := List.cons.inj hrest
        exact ⟨hfault, hafter, hstatus⟩
    · rcases hend with ⟨-, -, -, htold⟩ | ⟨save, more, hrest, -, -, -, htold⟩
      · rw [htold] at htext
        exact .inl (htells text htext)
      · rcases htold text htext with htell | hfailure
        · exact .inl (htells text htell)
        · exact .inr ⟨by simp [hrest], hfailure⟩

theorem name_severity (severity : Severity) :
    severity.name = if severity = .error then "error" else "warning" := by
  cases severity with
  | warning => rfl
  | error => rfl

/-- A diagnostic is told with its line, its severity and its message. -/
theorem render_diagnostic (d : Diagnostic) :
    d.render = "line " ++ toString d.line ++ ": "
      ++ (if d.severity = .error then "error" else "warning") ++ ": " ++ d.message := by
  rw [← name_severity]
  rfl

/-- A report says of a diagnostic its line and its severity, what was found and its details,
and the message. -/
theorem report_diagnostic (d : Diagnostic) :
    d.report = [("line", .number d.line),
        ("severity", .text (if d.severity = .error then "error" else "warning")),
        ("kind", .text d.finding.name)] ++ d.finding.details ++ [("message", .text d.message)] := by
  rw [← name_severity]
  rfl

/-- **Everything a command leaves behind comes from one assembly.** If the settings or the
source cannot be read, or the source cannot be assembled, the command fails and no file is
made or changed. Otherwise the listing, the object program and the report of that one
assembly are written in this order, and a file holds what was written to it last. The
command succeeds if and only if all of them could be written. If one could not be, nothing
behind it is written either.

In both cases the diagnostics are told in order, each with its line, its severity and its
message. Besides them nothing is told but the log and the failure. The system has to be
steady: a write that fails changes nothing. -/
theorem run_saves_one_assembly (hsteady : access.Steady) (kit : Toolkit) (files : FileTree)
    (options : Options) :
    (assembly? kit access files options = none →
        (run kit access files (.assemble options)).status = 1
        ∧ (run kit access files (.assemble options)).files = files)
      ∧ ∀ assembly, assembly? kit access files options = some assembly →
        ∃ stem done rest, Path.stem? options.input = some stem
          ∧ done ++ rest
            = [(Path.join (options.output.getD (Path.parent options.input))
                  (kit.shown stem ++ ".txt"), assembly.listing),
               (Path.join (options.output.getD (Path.parent options.input))
                  (kit.shown stem ++ ".obj"), assembly.object.render)]
              ++ options.diagnostics.toList.map (fun path =>
                (path, kit.report (assembly.diagnostics.map fun d =>
                  [("line", .number d.line),
                   ("severity", .text (if d.severity = .error then "error" else "warning")),
                   ("kind", .text d.finding.name)]
                    ++ d.finding.details ++ [("message", .text d.message)])))
          ∧ FileTree.Saves access files done (run kit access files (.assemble options)).files
          ∧ (∀ names, (run kit access files (.assemble options)).files.content? names
              = ((files.lastSaved? done names).map String.toUTF8).or (files.content? names))
          ∧ files.SameWays (run kit access files (.assemble options)).files
          ∧ ((run kit access files (.assemble options)).status = 0 ↔ rest = [])
          ∧ (∀ path text more, rest = (path, text) :: more →
              (run kit access files (.assemble options)).status = 1
              ∧ ((run kit access files (.assemble options)).files.write access path
                  text.toUTF8).fault ≠ none)
          ∧ ∃ before behind, (run kit access files (.assemble options)).told
              = before
                ++ assembly.diagnostics.map (fun d =>
                  "line " ++ toString d.line ++ ": "
                    ++ (if d.severity = .error then "error" else "warning") ++ ": " ++ d.message)
                ++ behind
            ∧ (∀ text ∈ before, IsLogLine kit options text)
            ∧ ∀ text ∈ behind, IsLogLine kit options text
              ∨ rest ≠ [] ∧ ∃ failure, text = kit.failure failure := by
  rw [run_assemble]
  refine ⟨outcome_of_none, fun assembly hassembly => ?_⟩
  obtain ⟨stem, done, rest, saved, hstem, hsaves, hfiles, hall, hstop, before, behind, htold,
    hlog⟩ := outcome_of_some hassembly
  have hafter : (outcome kit access files options).files = saved := by
    cases hcases : rest with
    | nil => exact (hall hcases).1
    | cons save more =>
      obtain ⟨hfault, hafter, -⟩ := hstop save more hcases
      exact hafter.trans (hsteady saved _ _ hfault)
  rw [hafter, ← List.map_congr_left fun d _ => report_diagnostic d]
  refine ⟨stem, done, rest, hstem, hsaves.symm, hfiles, hfiles.content?_eq, hfiles.sameWays,
    ⟨fun hstatus => ?_, fun hrest => (hall hrest).2⟩, fun path text more hrest => ?_, before,
    behind, ?_, hlog⟩
  · cases hcases : rest with
    | nil => rfl
    | cons save more =>
      rw [(hstop save more hcases).2.2] at hstatus
      cases hstatus
  · obtain ⟨hfault, -, hstatus⟩ := hstop _ _ hrest
    exact ⟨hstatus, hfault⟩
  · rw [htold, List.map_congr_left fun d _ => render_diagnostic d]

/-- A source text in a folder, with a reference to a label that is nowhere, for a command
that works in that folder. -/
def looseTree : FileTree :=
  { entries := [(["home"], .folder), (["home", "p.asm"], .file 0)]
    contents := [(0, "P START 0\nLDA NOWHERE\nEND\n".toUTF8)]
    here := ["home"] }

/-- The options of a command that is given its source from the root, and is to write its
report where its listing goes. -/
def looseOptions : Options := { input := "/home/p.asm", diagnostics := some "./p.txt" }

/-- All three texts are written, and the report takes the place of the listing. -/
theorem run_saves_one_assembly_loose :
    Access.Steady {}
      ∧ ∃ assembly, assembly? .usual {} looseTree looseOptions = some assembly
        ∧ assembly.diagnostics = [⟨2, .unresolvedSymbol "LDA" "NOWHERE"⟩]
        ∧ (run .usual {} looseTree (.assemble looseOptions)).status = 0
        ∧ (run .usual {} looseTree (.assemble looseOptions)).told
          = ["line 2: error: LDA: undefined symbol `NOWHERE`"]
        ∧ (run .usual {} looseTree (.assemble looseOptions)).files.content? ["home", "p.txt"]
          = some (Report.render (assembly.diagnostics.map Diagnostic.report)).toUTF8
        ∧ (run .usual {} looseTree (.assemble looseOptions)).files.content? ["home", "p.obj"]
          = some assembly.object.render.toUTF8 := by
  obtain ⟨assembly, placed, hok, hmade, hfound, -⟩ :=
    exists_assembly_made {} (Text.lines "P START 0\nLDA NOWHERE\nEND\n")
      (fun placed => (SecondPass.run placed).diagnostics) (fun _ => ())
      (a := [⟨2, .unresolvedSymbol "LDA" "NOWHERE"⟩]) (b := ()) rfl (by decide +kernel)
  have hdiagnostics : assembly.diagnostics = [⟨2, .unresolvedSymbol "LDA" "NOWHERE"⟩] := by
    rw [hmade.diagnostics, hfound]
    decide +kernel
  have hlead : looseTree.lead "/home/p.asm" = .ok (.name ["home", "p.asm"] false) := by
    decide +kernel
  have hassembly : assembly? .usual {} looseTree looseOptions = some assembly :=
    assembly?_of_source rfl (FileTree.readText_of_content? rfl hlead rfl) hok
  obtain ⟨stem, done, rest, hstem, hsaves, -, hcontent, hways, hstatus, hfault, before, behind,
    htold, hbefore, hbehind⟩ :=
      (run_saves_one_assembly Access.steady_of_granted .usual looseTree looseOptions).2 assembly
        hassembly
  obtain rfl : "p" = stem := Option.some.inj
    (Eq.trans (by decide +kernel : some "p" = Path.stem? looseOptions.input) hstem)
  have hthree : done ++ rest = [("/home/p.txt", assembly.listing),
      ("/home/p.obj", assembly.object.render),
      ("./p.txt", Report.render (assembly.diagnostics.map Diagnostic.report))] := by
    have hlisting : Path.join (looseOptions.output.getD (Path.parent looseOptions.input))
        (Toolkit.usual.shown "p" ++ ".txt") = "/home/p.txt" := by decide +kernel
    have hobject : Path.join (looseOptions.output.getD (Path.parent looseOptions.input))
        (Toolkit.usual.shown "p" ++ ".obj") = "/home/p.obj" := by decide +kernel
    rw [hsaves, hlisting, hobject, ← List.map_congr_left fun d _ => report_diagnostic d]
    rfl
  have hfree : ∀ save ∈ done ++ rest, ∃ names, looseTree.lead save.1 = .ok (.name names false) := by
    have hlisting : looseTree.lead "/home/p.txt" = .ok (.name ["home", "p.txt"] false) := by
      decide +kernel
    have hobject : looseTree.lead "/home/p.obj" = .ok (.name ["home", "p.obj"] false) := by
      decide +kernel
    have hreport : looseTree.lead "./p.txt" = .ok (.name ["home", "p.txt"] false) := by
      decide +kernel
    rw [hthree]
    simp [hlisting, hobject, hreport]
  have hrest : rest = [] := by
    cases hparts : rest with
    | nil => rfl
    | cons save more =>
      obtain ⟨names, hown⟩ := hfree save (by rw [hparts]; simp)
      refine absurd ?_ (hfault _ _ more hparts).2
      rw [FileTree.write_of_lead rfl (hways.lead_eq_ok_iff.mpr hown)]
  have hquiet : ∀ text, ¬ IsLogLine .usual looseOptions text := by
    rintro text ⟨entry, hentry⟩
    cases hentry
  have hnone : ∀ texts : List String, (∀ text ∈ texts, IsLogLine .usual looseOptions text) →
      texts = [] :=
    fun texts hall => List.eq_nil_iff_forall_not_mem.mpr fun text hmem =>
      hquiet text (hall text hmem)
  rw [hrest, List.append_nil] at hthree
  refine ⟨Access.steady_of_granted, assembly, hassembly, hdiagnostics, hstatus.mpr hrest,
    ?_, ?_, ?_⟩
  · rw [htold, hnone before hbefore, hnone behind fun text hmem =>
      (hbehind text hmem).resolve_right fun hfailed => hfailed.1 hrest, hdiagnostics]
    decide +kernel
  · have hgoes : ["/home/p.txt", "/home/p.obj", "./p.txt"].map
        (looseTree.goesTo · ["home", "p.txt"]) = [true, false, true] := by decide +kernel
    simp only [List.map_cons, List.cons.injEq] at hgoes
    rw [hcontent, hthree]
    simp [FileTree.lastSaved?, hgoes]
  · have hgoes : ["/home/p.txt", "/home/p.obj", "./p.txt"].map
        (looseTree.goesTo · ["home", "p.obj"]) = [false, true, false] := by decide +kernel
    simp only [List.map_cons, List.cons.injEq] at hgoes
    rw [hcontent, hthree]
    simp [FileTree.lastSaved?, hgoes]

end Command

end TwoPass
