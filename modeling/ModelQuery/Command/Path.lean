import ModelQuery.Text.Pieces

/-! Paths as text. Slashes part the names of folders, and a path that begins with one starts at the
root. -/

namespace ModelQuery.Path

def isAbsolute (path : String) : Bool :=
  path.startsWith "/"

/-- The path of a name in a folder. Nothing stands for the folder of the program. -/
def child (folder name : String) : String :=
  if folder.isEmpty || folder.endsWith "/" then folder ++ name else folder ++ "/" ++ name

/-- Whether a path holds the character that ends names, which can stand in none. -/
def holdsNul (path : String) : Bool :=
  path.toList.contains '\x00'

/-- Whether a piece of a path leads nowhere. -/
def isIdle (piece : List Char) : Bool :=
  piece = [] || piece = ['.']

/-- The folder of the last name in a path, as the path spells it. A path without a name has none. -/
def folder? (path : String) : Option String :=
  match (Text.pieces '/' path.toList).reverse.dropWhile isIdle with
  | [] => none
  | _ :: around =>
    let folder := ((around.dropWhile isIdle).reverse).map String.ofList
    some (if folder.isEmpty && isAbsolute path then "/" else "/".intercalate folder)

end ModelQuery.Path
