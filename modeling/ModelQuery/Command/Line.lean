import ModelQuery.Command.Request
import ModelQuery.Number.Reading

/-! Reading the command line. A verb may be followed by a verb below it, and each verb has flags,
which may stand anywhere behind it, and operands. Some flags belong to all verbs and count wherever
they are given. -/

namespace ModelQuery.Command

/-- What kind of text a flag or an operand takes. -/
inductive Form
  | text
  | file
  | number
  | route
  | shell
  deriving DecidableEq, Repr

inductive Flag
  | verbose
  | quiet
  | json
  | noColor
  | settings
  | help
  | version
  | criteria
  | route
  | tokens
  | tree
  | resolve
  | catalog
  | model
  | limit
  | offset
  | all
  deriving DecidableEq, Repr

namespace Flag

def long : Flag → String
  | verbose => "verbose"
  | quiet => "quiet"
  | json => "json"
  | noColor => "no-color"
  | settings => "config"
  | help => "help"
  | version => "version"
  | criteria => "criteria"
  | route => "path"
  | tokens => "tokens"
  | tree => "ast"
  | resolve => "resolve"
  | catalog => "catalog"
  | model => "model"
  | limit => "limit"
  | offset => "offset"
  | all => "all"

def short? : Flag → Option Char
  | verbose => some 'v'
  | quiet => some 'q'
  | help => some 'h'
  | version => some 'V'
  | model => some 'm'
  | _ => none

/-- The form of the value that a flag takes, if it takes one. -/
def form? : Flag → Option Form
  | settings | criteria | catalog | model => some .file
  | limit | offset => some .number
  | route => some .route
  | _ => none

/-- The flags of all verbs. -/
def common : List Flag :=
  [verbose, quiet, json, noColor, settings, help, version]

/-- Flags that are not given together. -/
def rivals : List (Flag × Flag) :=
  [(quiet, verbose), (all, limit)]

end Flag

inductive Verb
  | main
  | compile
  | select
  | page
  | config
  | display
  | set
  | path
  | completions
  deriving DecidableEq, Repr

namespace Verb

def flags : Verb → List Flag
  | compile => Flag.common ++ [.criteria, .route, .tokens, .tree, .resolve, .catalog]
  | select => Flag.common ++ [.criteria, .model, .catalog, .limit, .offset, .all]
  | page => Flag.common ++ [.limit, .offset, .all]
  | _ => Flag.common

/-- The forms of the operands, as many as there may be. -/
def operands : Verb → List Form
  | compile | select | page => [.text]
  | set => [.text, .text]
  | completions => [.shell]
  | main | config | display | path => []

/-- The verbs below a verb by their names. -/
def below : Verb → List (String × Verb)
  | main => [("compile", compile), ("c", compile), ("select", select), ("s", select),
      ("page", page), ("p", page), ("config", config), ("completions", completions)]
  | config => [("show", display), ("set", set), ("path", path)]
  | _ => []

def named? (verb : Verb) (name : String) : Option Verb :=
  verb.below.lookup name

/-- Whether a word behind a verb asks for help with the verbs below it. -/
def asksForHelp (verb : Verb) (word : String) : Bool :=
  !verb.below.isEmpty && word = "help"

end Verb

/-- Why a command line is not carried out. The last two ask for a text. -/
inductive Misuse
  | missingOperand
  /-- Two things were given that rule each other out, or one thing twice. -/
  | conflict
  /-- A value is missing, or none of the allowed words. -/
  | invalidValue
  /-- A value is no number. -/
  | invalidNumber
  /-- A value was given to a flag that takes none. -/
  | needlessValue
  | unknownArgument
  | unknownVerb
  | help
  | version
  deriving DecidableEq, Repr

def routes : List (String × Option Route) :=
  [("auto", none), ("full", some .full), ("flat", some .flat)]

def shell? (word : String) : Option Shell :=
  Shell.all.find? (·.word = word)

/-- Checks a value against the form it should have. -/
def Form.check (value : String) : Form → Except Misuse Unit
  | text => .ok ()
  | file => if value.isEmpty then .error .invalidValue else .ok ()
  | number => if (Number.size? value.toList).isSome then .ok () else .error .invalidNumber
  | route => if (List.lookup value routes).isSome then .ok () else .error .invalidValue
  | shell => if (shell? value).isSome then .ok () else .error .invalidValue

/-- What was given to one verb; flags without a value have an empty one. -/
structure Level where
  verb : Verb
  flags : List (Flag × String)
  operands : List String
  deriving Repr

/-- What was read last. It is checked when the next thing is read. -/
inductive Pending
  | nothing
  /-- A flag of which the value has to come next. -/
  | awaiting (flag : Flag)
  | flag (flag : Flag) (value : String)
  | operand (value : String)
  deriving Repr

namespace Level

def start (verb : Verb) : Level := ⟨verb, [], []⟩

def has (level : Level) (flag : Flag) : Bool :=
  level.flags.any (·.1 = flag)

def value? (level : Level) (flag : Flag) : Option String :=
  level.flags.lookup flag

/-- Takes a flag, which may be given once. -/
def take (level : Level) (flag : Flag) (value : String) : Except Misuse Level :=
  if level.has flag then .error .conflict
  else do
    if let some form := flag.form? then form.check value
    return { level with flags := level.flags ++ [(flag, value)] }

/-- Takes what was pending. -/
def settle (level : Level) : Pending → Except Misuse Level
  | .nothing => .ok level
  | .awaiting _ => .error .invalidValue
  | .flag flag value => level.take flag value
  | .operand value => do
    if let some form := level.verb.operands[level.operands.length]? then form.check value
    return { level with operands := level.operands ++ [value] }

/-- Takes a flag that needs no value. -/
def switch (level : Level) (pending : Pending) (flag : Flag) : Except Misuse Level := do
  let level ← level.settle pending
  match flag with
  | .help => .error .help
  | .version => .error .version
  | flag => level.take flag ""

/-- Takes a flag after which nothing is pending but its value. -/
def openFlag (level : Level) (pending : Pending) (flag : Flag) (value : Option String) :
    Except Misuse (Level × Pending) := do
  let level ← level.settle pending
  match value with
  | some value => return (← level.take flag value, .nothing)
  | none => return (level, .awaiting flag)

/-- Takes an argument that begins with two dashes. -/
def long (level : Level) (pending : Pending) (body : List Char) :
    Except Misuse (Level × Pending) := do
  let (name, rest) := body.span (· != '=')
  let value := match rest with
    | _ :: value => some (String.ofList value)
    | [] => none
  match level.verb.flags.find? (·.long = String.ofList name) with
  | none => .error .unknownArgument
  | some flag =>
    if flag.form?.isSome then level.openFlag pending flag value
    else if value.isSome then .error .needlessValue
    else return (← level.switch pending flag, .nothing)

/-- Takes an argument that begins with one dash. The letters after it are flags, and what follows
the letter of a flag that takes a value is its value. -/
def short (level : Level) (pending : Pending) : List Char → Except Misuse (Level × Pending)
  | [] => .ok (level, pending)
  | letter :: rest => do
    match level.verb.flags.find? (·.short? = some letter) with
    | none => .error .unknownArgument
    | some flag =>
      if flag.form?.isSome then
        level.openFlag pending flag (match rest with
          | [] => none
          | '=' :: value => some (String.ofList value)
          | value => some (String.ofList value))
      else short (← level.switch pending flag) .nothing rest

/-- How many operands there are with what is pending. -/
def operandCount (level : Level) : Pending → Nat
  | .operand _ => level.operands.length + 1
  | _ => level.operands.length

/-- Takes an operand, if there may be one more. -/
def operand (level : Level) (pending : Pending) (closed : Bool) (value : String) :
    Except Misuse (Level × Pending) :=
  if level.operandCount pending < level.verb.operands.length then do
    return (← level.settle pending, .operand value)
  else if level.verb.below.isEmpty ∨
      (closed ∧ ((level.verb.named? value).isSome ∨ level.verb.asksForHelp value)) then
    .error .unknownArgument
  else .error .unknownVerb

/-- Whether enough was given, a file with criteria standing in for a filter. -/
def isComplete (level : Level) : Bool :=
  level.operands.length = level.verb.operands.length || level.has .criteria

/-- Whether two things rule each other out. -/
def isTorn (level : Level) : Bool :=
  Flag.rivals.any (fun (a, b) => level.has a && level.has b) ||
    (level.has .criteria && !level.operands.isEmpty)

/-- Checks everything that was given to a verb. `named` is the file with the settings that the
surroundings name; it counts where no other is given. -/
def finish (named : Option String) (level : Level) (pending : Pending) : Except Misuse Level := do
  let level ← level.settle pending
  if !level.has .settings ∧ named = some "" then .error .invalidValue
  else if level.isTorn then .error .conflict
  else if !level.isComplete then .error .missingOperand
  else return level

end Level

/-- Finds the verb of which help is asked for. There is help with the word `help` too. -/
def helpFor (verb : Verb) : List String → Misuse
  | [] => .help
  | name :: names => match verb.named? name with
    | some verb => helpFor verb names
    | none => if verb.asksForHelp name ∧ names.isEmpty then .help else .unknownVerb

/-- Reads what follows a verb, in levels from that verb on downward. After two dashes everything is
an operand, which is what `closed` stands for. -/
def levels (named : Option String) (level : Level) (pending : Pending) (closed : Bool) :
    List String → Except Misuse (List Level)
  | [] => return [← level.finish named pending]
  | argument :: rest =>
    let operand : Except Misuse (List Level) := do
      let (level, pending) ← level.operand pending closed argument
      levels named level pending closed rest
    if closed then operand
    else
      let word : Except Misuse (List Level) :=
        match argument.toList, pending with
        | ['-', '-'], pending => levels named level pending true rest
        | '-' :: '-' :: body, pending => do
          let (level, pending) ← level.long pending body
          levels named level pending false rest
        | '-' :: letter :: body, pending => do
          let (level, pending) ← level.short pending (letter :: body)
          levels named level pending false rest
        | _, .awaiting flag => levels named level (.flag flag argument) false rest
        | _, _ => operand
      match pending with
      | .awaiting _ => word
      | pending => match level.verb.named? argument with
        | some verb => do
          let inner ← levels named (.start verb) .nothing false rest
          return (← level.finish named pending) :: inner
        | none =>
          if level.verb.asksForHelp argument then .error (helpFor level.verb rest)
          else word

/-! ### Requests -/

namespace Level

def source (level : Level) : Source :=
  match level.value? .criteria with
  | some path => .criteria path
  | none => .filter (level.operands.headD "")

def number? (level : Level) (flag : Flag) : Option Nat :=
  (level.value? flag).bind fun value => Number.size? value.toList

def window (level : Level) : Window :=
  ⟨level.number? .limit, (level.number? .offset).getD 0, level.has .all⟩

def task (level : Level) : Task :=
  match level.verb with
  | .main => .help
  | .compile => .compile {
      source := level.source
      route := ((level.value? .route).bind (List.lookup · routes)).join
      tokens := level.has .tokens
      tree := level.has .tree
      resolve := level.has .resolve
      catalog := level.value? .catalog }
  | .select => .select ⟨level.source, level.value? .model, level.value? .catalog, level.window⟩
  | .page => .page (level.operands.headD "") level.window
  | .config | .display => .showSettings
  | .set => .setSetting (level.operands.headD "") (level.operands.getD 1 "")
  | .path => .showPath
  | .completions => .completions ((shell? (level.operands.headD "")).getD .bash)

end Level

/-- Reads the arguments of a command line. `named` is the file with the settings that the
surroundings name. -/
def read (named : Option String) (arguments : List String) : Except Misuse Request := do
  let levels ← levels named (.start .main) .nothing false arguments
  let has (flag : Flag) : Bool := levels.any (·.has flag)
  return {
    verbose := has .verbose
    quiet := has .quiet
    json := has .json
    plain := has .noColor
    settings := (levels.reverse.findSome? (·.value? .settings)).or named
    task := ((levels.getLast?).map Level.task).getD .help }

end ModelQuery.Command
