import TwoPass.Text

/-!
# Command line options

The arguments of a command are read from left to right into a `Draft`, and the
first that cannot be used makes the whole line unusable. Asking for the help
or the version ends the reading at once, whatever comes behind.

An option with a value takes it from the same argument or from the next one. A
value is never empty. It may be a single dash, but nothing else that begins
with one. No option may be given twice. Two dashes end the options, and there
is nothing a command could take behind them.
-/

namespace TwoPass

/-- What a command is asked to do. -/
structure Options where
  /-- The source file. -/
  input : String
  /-- The folder for what is made, if it is not that of the source file. -/
  output : Option String := none
  /-- The file with the settings. -/
  config : Option String := none
  /-- The file for a report of the diagnostics. -/
  diagnostics : Option String := none
  /-- Whether to log what happens. -/
  verbose : Bool := false
  /-- Whether an error among the diagnostics ends the assembly. -/
  strict : Bool := false
deriving DecidableEq, Repr

/-- What the arguments of a command ask for. -/
inductive Request where
  /-- An assembly. -/
  | assemble (options : Options)
  /-- The version of the program. -/
  | version
  /-- An account of the options. -/
  | help
  /-- Nothing that could be done. -/
  | unusable
deriving DecidableEq, Repr

namespace Options

/-- The options that take a value. -/
inductive Valued where
  /-- The source file, `--input` or `-i`. -/
  | input
  /-- The folder for what is made, `--output` or `-o`. -/
  | output
  /-- The file with the settings, `--config`. -/
  | config
  /-- The file for a report, `--diagnostics`. -/
  | diagnostics
deriving DecidableEq, Repr

/-- The options that take none. -/
inductive Flag where
  /-- Log what happens, `--verbose` or `-v`. -/
  | verbose
  /-- Let an error end the assembly, `--strict`. -/
  | strict
  /-- Give an account of the options, `--help` or `-h`. -/
  | help
  /-- Give the version, `--version` or `-V`. -/
  | version
deriving DecidableEq, Repr

/-- The option of a long name. -/
def ofLong? : String → Option (Valued ⊕ Flag)
  | "input" => some (.inl .input)
  | "output" => some (.inl .output)
  | "config" => some (.inl .config)
  | "diagnostics" => some (.inl .diagnostics)
  | "verbose" => some (.inr .verbose)
  | "strict" => some (.inr .strict)
  | "help" => some (.inr .help)
  | "version" => some (.inr .version)
  | _ => none

/-- The option of a letter. -/
def ofShort? : Char → Option (Valued ⊕ Flag)
  | 'i' => some (.inl .input)
  | 'o' => some (.inl .output)
  | 'v' => some (.inr .verbose)
  | 'h' => some (.inr .help)
  | 'V' => some (.inr .version)
  | _ => none

/-- The options read so far. -/
structure Draft where
  /-- The source file. -/
  input : Option String := none
  /-- The folder for what is made. -/
  output : Option String := none
  /-- The file with the settings. -/
  config : Option String := none
  /-- The file for a report. -/
  diagnostics : Option String := none
  /-- Whether to log what happens. -/
  verbose : Bool := false
  /-- Whether an error ends the assembly. -/
  strict : Bool := false
deriving DecidableEq, Repr

/-- How reading goes on behind an option. -/
inductive Progress where
  /-- With the next option. -/
  | next (draft : Draft)
  /-- With the value of an option. -/
  | value (draft : Draft) (option : Valued)
  /-- Not at all. -/
  | done (request : Request)
deriving DecidableEq, Repr

namespace Draft

/-- A value that was not there before and is not empty. -/
def first? (before : Option String) (value : String) : Option (Option String) :=
  if before.isSome ∨ value = "" then none else some (some value)

/-- The draft with the value of an option. -/
def give (d : Draft) (option : Valued) (value : String) : Progress :=
  let draft? : Option Draft :=
    match option with
    | .input => (first? d.input value).map fun input => { d with input }
    | .output => (first? d.output value).map fun output => { d with output }
    | .config => (first? d.config value).map fun config => { d with config }
    | .diagnostics => (first? d.diagnostics value).map fun diagnostics => { d with diagnostics }
  match draft? with
  | some d => .next d
  | none => .done .unusable

/-- The draft with an option that takes no value. -/
def raise (d : Draft) : Flag → Progress
  | .verbose => if d.verbose then .done .unusable else .next { d with verbose := true }
  | .strict => if d.strict then .done .unusable else .next { d with strict := true }
  | .help => .done .help
  | .version => .done .version

/-- The draft with the options of an argument of letters. What follows the
letter of an option with a value is the value, behind an equals sign or not. -/
def short (d : Draft) : List Char → Progress
  | [] => .next d
  | letter :: rest =>
    match ofShort? letter with
    | none => .done .unusable
    | some (.inl option) =>
      match rest with
      | [] => .value d option
      | '=' :: value => d.give option (String.ofList value)
      | value => d.give option (String.ofList value)
    | some (.inr flag) =>
      match d.raise flag with
      | .next d => d.short rest
      | progress => progress

/-- The draft with the option of an argument of a long name, which may have a
value behind an equals sign. -/
def long (d : Draft) (text : List Char) : Progress :=
  let value := text.dropWhile (· ≠ '=')
  match ofLong? (String.ofList (text.takeWhile (· ≠ '='))), value with
  | some (.inl option), [] => .value d option
  | some (.inl option), _ :: value => d.give option (String.ofList value)
  | some (.inr flag), [] => d.raise flag
  | _, _ => .done .unusable

/-- The draft with the options of an argument. -/
def argument (d : Draft) (argument : String) : Progress :=
  match argument.toList with
  | '-' :: '-' :: text => d.long text
  | '-' :: letter :: letters => d.short (letter :: letters)
  | _ => .done .unusable

/-- The request of a draft that is complete. -/
def finish (d : Draft) : Request :=
  match d.input with
  | none => .unusable
  | some input =>
    .assemble
      { input, output := d.output, config := d.config, diagnostics := d.diagnostics
        verbose := d.verbose, strict := d.strict }

end Draft

/-- Whether an argument can be the value of the option before it. -/
def isValue (argument : String) : Bool :=
  match argument.toList with
  | '-' :: _ :: _ => false
  | _ => true

/-- The request of the arguments that follow a draft. -/
def readFrom (d : Draft) : List String → Request
  | [] => d.finish
  | argument :: more =>
    if argument = "--" then if more.isEmpty then d.finish else .unusable
    else
      match d.argument argument with
      | .done request => request
      | .next d => readFrom d more
      | .value d option =>
        match more with
        | [] => .unusable
        | value :: more =>
          if isValue value then
            match d.give option value with
            | .next d => readFrom d more
            | _ => .unusable
          else .unusable

/-- The request of the arguments of a command. -/
def read (arguments : List String) : Request := readFrom {} arguments

end Options

end TwoPass
