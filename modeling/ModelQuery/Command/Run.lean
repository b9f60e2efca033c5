import ModelQuery.Command.Compile
import ModelQuery.Command.Completion
import ModelQuery.Command.Line
import ModelQuery.Command.Select
import ModelQuery.Command.Settings

/-! Running the program: the command line is read, then the settings, and then the command runs
under them. -/

namespace ModelQuery.Command

variable {m : Type → Type} [Monad m] [Host m]

/-- What is said if no command is given. -/
def greeting : String :=
  "bimq - query building-model objects\nUse --help for usage information\n"

def runTask (context : Context) : Task → ExceptT Failure m String
  | .compile inspection => compile context inspection
  | .select search => select context search
  | .page token window => page context token window
  | .showSettings => showSettings context
  | .setSetting key value => setSetting context key value
  | .showPath => showPath context
  | .completions shell => return completionScript shell
  | .help => return if context.quiet then "" else greeting

/-- The context of a request. Colors need that nobody is against them: the request, the variable
`NO_COLOR`, and the settings. -/
def contextOf (request : Request) : ExceptT Failure m Context := do
  let file ← Settings.findFile request.settings
  let settings ← Settings.load file
  let noColor ← ExceptT.lift (Host.environment? "NO_COLOR")
  return ⟨request.json, !request.plain && noColor.isNone && settings.color.getD true,
    request.quiet, file, settings⟩

/-- Does what a request asks for, and returns what is shown then. -/
def runRequest (request : Request) : ExceptT Failure m String := do
  runTask (← contextOf request) request.task

/-- How a run of the program ends. -/
inductive Outcome
  | misused (misuse : Misuse)
  | failed (json : Bool) (failure : Failure)
  | done (output : String)
  deriving DecidableEq, Repr

/-- Runs the program with these arguments. -/
def run (arguments : List String) : m Outcome := do
  match read (← Host.environment? "BIMQ_CONFIG") arguments with
  | .error misuse => return .misused misuse
  | .ok request => match ← (runRequest request).run with
    | .error failure => return .failed request.json failure
    | .ok output => return .done output

namespace Outcome

/-- The number that the program ends with. -/
def status : Outcome → Nat
  | misused .help | misused .version => 0
  | misused _ => 2
  | failed _ failure => failure.status
  | done _ => 0

/-- What is told of a failure. `detail` is said of a text that cannot be read. -/
def complaint (detail : String) : Outcome → String
  | failed true failure => (failure.document detail).pretty
  | failed false failure => "Error: " ++ failure.message detail
  | misused _ | done _ => ""

end Outcome

end ModelQuery.Command
