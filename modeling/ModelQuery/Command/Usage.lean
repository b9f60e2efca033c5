import ModelQuery.Command.Run

/-! What is said about the use of the program. -/

namespace ModelQuery.Command

/-- How a flag is written, with its value. -/
def Flag.usage (flag : Flag) : String :=
  let short := match flag.short? with
    | some letter => "-" ++ letter.toString ++ ", "
    | none => ""
  let value := match flag.form? with
    | some .file => " <FILE>"
    | some .number => " <NUMBER>"
    | some .route => " <" ++ "|".intercalate (routes.map Prod.fst) ++ ">"
    | some .shell => " <" ++ "|".intercalate (Shell.all.map Shell.word) ++ ">"
    | some .text => " <TEXT>"
    | none => ""
  "  " ++ short ++ "--" ++ flag.long ++ value ++ "\n"

/-- The flags of all verbs below the main one, each once. -/
def usage : String :=
  "bimq - query building-model objects\n\nUsage: bimq <COMMAND> [OPTIONS]\n\nCommands: " ++
    verbNames ++ "\n\nOptions:\n" ++
    String.join (((Verb.flags .compile ++ Verb.flags .select).eraseDups).map Flag.usage)

def versionText : String := "bimq 0.1.0\n"

def Misuse.message : Misuse → String
  | missingOperand => "an argument is missing"
  | conflict => "an argument cannot be used with another, or is given twice"
  | invalidValue => "a value is missing or not allowed"
  | invalidNumber => "a value is not a number"
  | needlessValue => "a value is given to an option that takes none"
  | unknownArgument => "an argument is not known"
  | unknownVerb => "a command is not known"
  | help => usage
  | version => versionText

namespace Outcome

/-- What the program shows. -/
def shown : Outcome → String
  | misused .help => Misuse.message .help
  | misused .version => Misuse.message .version
  | misused _ | failed .. => ""
  | done output => output

/-- What the program says when it did not do what it was asked for. -/
def said (detail : String) : Outcome → String
  | misused .help | misused .version | done _ => ""
  | misused misuse => "error: " ++ misuse.message ++ "\n"
  | failed json failure => (failed json failure).complaint detail ++ "\n"

end Outcome

end ModelQuery.Command
