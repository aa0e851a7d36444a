import NativeHeader.CommandLine.Arguments
import NativeHeader.Run.Basic

/-! The program: a command line in, an exit status out. -/
namespace NativeHeader.CommandLine

/-- How the program ends. -/
inductive Ending where
  /-- A run was made: the status is 0, or 1 if the schema was at fault. -/
  | finished (status : Nat)
  /-- No run was made: the status is 0 after help, 2 after misuse. -/
  | stopped (status : Nat)
  /-- A run ended for a reason that is not the schema's. -/
  | failed (cause : Failure)

/-- How the program ends when no run is started. -/
def Stop.ending : Stop → Ending
  | .help => .stopped 0
  | .misuse => .stopped 2
  | .schemaWithoutText => .failed (.optionNotText "schema")

variable {m : Type → Type} [Monad m] [Files m]

/-- Runs the program with the words of a command line, in the directory `root`. -/
def program (words : List String) (root : String) : m Ending := do
  Files.note (Notice.workingFrom root).line
  match parse words with
  | .error stop => return stop.ending
  | .ok options =>
    match ← (run options root).run with
    | .ok _ => return .finished 0
    | .error cause =>
      if cause.isReported then
        Files.note (Notice.failed cause.message).line
        return .finished 1
      else return .failed cause

end NativeHeader.CommandLine
