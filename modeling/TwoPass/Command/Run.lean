import TwoPass.Assembly
import TwoPass.Command.FileTree
import TwoPass.Command.Options
import TwoPass.Command.Path
import TwoPass.Command.Toolkit

/-!
# Running a command

A command reads its settings and its source, assembles, and writes the listing
and the object program beside the source or into the folder it was given, and
a report of the diagnostics if it was asked for one.

What is read decides everything but one thing, whether the writes succeed. So
a command is first turned into a sequence of actions (`Command.plan`), and the
actions are then carried out one after the other up to the first that fails
(`Command.perform`). Nothing is written before the assembly has succeeded.

`Command.run` is a command on a tree of files, with a toolkit and the access that the
system grants.
-/

namespace TwoPass

namespace Command

/-- The version of the program. -/
def version : String := "sicxe-asm 0.1.0\n"

/-- An account of the options. -/
def help : String :=
  String.join <| List.map (· ++ "\n")
    ["Assemble a SIC/XE source file into a listing and an object program",
     "",
     "Usage: sicasm [OPTIONS] --input <FILE>",
     "",
     "Options:",
     "  -i, --input <FILE>        Input assembly file",
     "  -o, --output <DIR>        Output directory (defaults to the input's directory)",
     "  -v, --verbose             Log pipeline stages at debug level",
     "      --config <FILE>       Assembler settings as JSON (missing fields keep their defaults)",
     "      --diagnostics <FILE>  Write diagnostics to FILE as JSON",
     "      --strict              Fail when any symbol or mnemonic is left unresolved",
     "  -h, --help                Print help",
     "  -V, --version             Print version"]

/-- A step of a command. -/
inductive Action where
  /-- Something is told, on lines of its own. -/
  | tell (text : String)
  /-- A file is written. -/
  | save (path content : String)
  /-- The command fails. -/
  | fail (failure : Failure)
deriving DecidableEq, Repr

/-- An entry of the log is told, if it is wanted. -/
def log (kit : Toolkit) (options : Options) (entry : LogEntry) : List Action :=
  (kit.log options.verbose entry).toList.map .tell

/-- An entry about a path is told, if it is wanted. -/
def logPath (kit : Toolkit) (options : Options) (message name path : String) : List Action :=
  log kit options
    { level := .info, target := "sicasm", message, values := [(name, .plain (kit.shown path))] }

/-- The folder that the listing and the object program go to. -/
def folder (options : Options) : String := options.output.getD (Path.parent options.input)

/-- The listing, the object program and the report are written. -/
def output (kit : Toolkit) (options : Options) (assembly : Assembly) : List Action :=
  match Path.stem? options.input with
  | none => [.fail { message := "input path has no file name" }]
  | some stem =>
    let listing := Path.join (folder options) s!"{kit.shown stem}.txt"
    let object := Path.join (folder options) s!"{kit.shown stem}.obj"
    let report := kit.report (assembly.diagnostics.map Diagnostic.report)
    .save listing assembly.listing :: logPath kit options "saved listing" "path" listing ++
      .save object assembly.object.render ::
        logPath kit options "saved object program" "path" object ++
      options.diagnostics.toList.map (.save · report)

/-- The settings of a command, given what its settings file holds if it has
one. -/
def settings (kit : Toolkit) (options : Options)
    (config : Option (String × Except FileFault String)) : Except Failure Settings :=
  match config with
  | none => .ok { strict := options.strict }
  | some (path, .error fault) =>
    .error { message := s!"failed to read config {kit.shown path}", cause := fault.message }
  | some (path, .ok text) =>
    match kit.settings text with
    | .error cause => .error { message := s!"invalid config {kit.shown path}", cause }
    | .ok settings => .ok { settings with strict := settings.strict || options.strict }

/-- The actions of a command under some settings, given what its source file
holds. -/
def assemble (kit : Toolkit) (options : Options) (settings : Settings)
    (source : Except FileFault String) : List Action :=
  match source with
  | .error fault =>
    [.fail { message := s!"failed to read {kit.shown options.input}", cause := fault.message }]
  | .ok source =>
    let run := Run.ofLines settings (Text.lines source)
    logPath kit options "loaded source" "input" options.input ++
      run.events.flatMap (log kit options ·.entry) ++
      match run.result with
      | .error fault =>
        [.fail { message := fault.message, cause := fault.cause?.map HexFault.message }]
      | .ok assembly =>
        assembly.diagnostics.map (.tell ·.render) ++ output kit options assembly

/-- The actions of a command, which reads its settings and then its source. -/
def plan {m : Type → Type} [Monad m] (kit : Toolkit)
    (read : String → m (Except FileFault String)) (options : Options) : m (List Action) := do
  let config ← options.config.mapM fun path => return (path, ← read path)
  match settings kit options config with
  | .error failure => return [.fail failure]
  | .ok settings => return assemble kit options settings (← read options.input)

/-- The failure of a write. -/
def saveFailure (kit : Toolkit) (path : String) (fault : FileFault) : Failure :=
  { message := s!"failed to write {kit.shown path}", cause := fault.message }

/-- What a command leaves behind. -/
structure Outcome where
  /-- The exit status: zero for success, one for a failure, two for arguments
  that cannot be used. -/
  status : Nat
  /-- What was printed. -/
  printed : String := ""
  /-- The texts that were told, each on lines of its own. -/
  told : List String := []
  /-- The files. -/
  files : FileTree

/-- The lines of what was told; a name in it may go over several. -/
def Outcome.lines (outcome : Outcome) : List String :=
  outcome.told.flatMap (Text.split (· = '\n'))

/-- The outcome of some actions on a tree of files. -/
def perform (kit : Toolkit) (access : Access) (files : FileTree) : List Action → Outcome
  | [] => { status := 0, files }
  | .tell text :: more =>
    let outcome := perform kit access files more
    { outcome with told := text :: outcome.told }
  | .save path content :: more =>
    match files.write access path content.toUTF8 with
    | { files, fault := some fault } =>
      { status := 1, told := [kit.failure (saveFailure kit path fault)], files }
    | { files, fault := none } => perform kit access files more
  | .fail failure :: _ => { status := 1, told := [kit.failure failure], files }

/-- The outcome of a request on a tree of files. -/
def run (kit : Toolkit) (access : Access) (files : FileTree) : Request → Outcome
  | .unusable => { status := 2, files }
  | .version => { status := 0, printed := version, files }
  | .help => { status := 0, printed := help, files }
  | .assemble options =>
    perform kit access files
      (Id.run (plan kit (fun path => pure (files.readText access path)) options))

end Command

end TwoPass
