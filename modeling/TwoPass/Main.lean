import TwoPass.Command.Run

/-!
# The command line

The outer layer of the program: the files are those of the system, and what is
told goes to the standard error stream.
-/

namespace TwoPass.Host

/-- A refusal of the system as a fault. -/
def faultOf (error : IO.Error) : FileFault :=
  match error with
  | .noFileOrDirectory .. => .notFound
  | .inappropriateType _ 20 _ => .notFolder
  | .inappropriateType _ 21 _ => .isFolder
  | error => .other (toString error)

/-- The text of a file of the system. -/
def readText (path : String) : IO (Except FileFault String) := do
  try
    let content ← (← IO.FS.Handle.mk path .read).readBinToEnd
    match String.fromUTF8? content with
    | some text => return .ok text
    | none => return .error .notText
  catch error => return .error (faultOf error)

/-- Actions are carried out on the files of the system. -/
def perform : List Command.Action → IO UInt32
  | [] => return 0
  | .tell text :: more => do
    IO.eprintln text
    perform more
  | .save path content :: more => do
    let saved ← try
        IO.FS.writeFile path content
        pure (Except.ok ())
      catch error => pure (Except.error (faultOf error))
    match saved with
    | .ok () => perform more
    | .error fault =>
      let kit := Command.Toolkit.usual
      IO.eprintln (kit.failure (Command.saveFailure kit path fault))
      return 1
  | .fail failure :: _ => do
    IO.eprintln (Command.Toolkit.usual.failure failure)
    return 1

end TwoPass.Host

/-- The program. -/
def main (arguments : List String) : IO UInt32 := do
  match TwoPass.Options.read arguments with
  | .unusable =>
    IO.eprint TwoPass.Command.help
    return 2
  | .version =>
    IO.print TwoPass.Command.version
    return 0
  | .help =>
    IO.print TwoPass.Command.help
    return 0
  | .assemble options =>
    let actions ← TwoPass.Command.plan .usual TwoPass.Host.readText options
    TwoPass.Host.perform actions
