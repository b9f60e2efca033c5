import ModelQuery.Command.Line

/-! Scripts that make a shell complete the names of verbs, in the place of generated ones. -/

namespace ModelQuery.Command

/-- The names that a shell completes. -/
def verbNames : String :=
  " ".intercalate ((Verb.below .main).map Prod.fst)

/-- A script for a shell. It stands in for the one that a generator outside of the program writes
from the whole command line, and completes no more than the names of the verbs. -/
def completionScript : Shell → String
  | .bash => "complete -W '" ++ verbNames ++ "' bimq\n"
  | .zsh => "compctl -k '(" ++ verbNames ++ ")' bimq\n"
  | .fish => "complete -c bimq -f -n __fish_use_subcommand -a '" ++ verbNames ++ "'\n"
  | .powershell => "Register-ArgumentCompleter -Native -CommandName bimq -ScriptBlock \x7b '" ++
      verbNames ++ "'.Split(' ') \x7d\n"

end ModelQuery.Command
