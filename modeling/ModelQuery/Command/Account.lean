import ModelQuery.Text.Pieces

/-! The users on record. Each has a line of fields that colons part: the name, a word, the numbers
of the user and of the group, a comment, the home folder and the shell. -/

namespace ModelQuery.Account

def fields (mark : Char) (line : List Char) : List String :=
  (Text.pieces mark line).map String.ofList

/-- The number of the user, from the status of a process, in which a line gives it after a word. -/
def number? (status : String) : Option String :=
  (Text.pieces '\n' status.toList).findSome? fun line =>
    match fields '\t' line with
    | "Uid:" :: number :: _ => some number
    | _ => none

/-- The home folder of the user with a number. -/
def home? (records number : String) : Option String :=
  (Text.pieces '\n' records.toList).findSome? fun line =>
    match fields ':' line with
    | [_, _, user, _, _, home, _] => if user = number then some home else none
    | _ => none

end ModelQuery.Account
