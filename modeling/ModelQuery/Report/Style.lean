import ModelQuery.Filter.Joiner

/-! Text for the terminal: colors, shortening, and columns. -/

namespace ModelQuery.Report

/-- A look that text can have in a terminal. -/
inductive Style
  | blue
  | green
  | yellow
  | bold
  | dimmed
  deriving DecidableEq, Repr

namespace Style

/-- The number that switches a look on. -/
def on : Style → String
  | blue => "34"
  | green => "32"
  | yellow => "33"
  | bold => "1"
  | dimmed => "2"

/-- The number that switches a look off; colors have one of their own. -/
def off : Style → String
  | blue | green | yellow => "39"
  | bold | dimmed => "0"

def sequence (code : String) : String :=
  "\x1b[" ++ code ++ "m"

def apply (style : Style) (text : String) : String :=
  sequence style.on ++ text ++ sequence style.off

end Style

/-- Text in some looks, the last one outermost, if colors are wanted. -/
def styled (colors : Bool) (styles : List Style) (text : String) : String :=
  if colors then styles.foldl (fun text style => style.apply text) text else text

/-- The joiner in front of an entry, with a blank behind it; the first entry has none. -/
def joinerMark (colors : Bool) : Joiner → String
  | .blank => ""
  | .and => styled colors [.blue, .bold] Joiner.and.word ++ " "
  | .or => styled colors [.yellow, .bold] Joiner.or.word ++ " "

/-- The name of a section. -/
def label (colors : Bool) (text : String) : String :=
  styled colors [.bold] text

/-- A text of at most `most` characters; three points at the end tell that something is missing. -/
def shorten (most : Nat) (text : String) : String :=
  let cs := text.toList
  if most < cs.length then String.ofList (cs.take (most - 3)) ++ "..." else text

/-- A text with blanks behind it up to a width. -/
def column (width : Nat) (text : String) : String :=
  text ++ String.ofList (List.replicate (width - text.length) ' ')

end ModelQuery.Report
