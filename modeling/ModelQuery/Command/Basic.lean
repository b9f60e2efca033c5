import ModelQuery.Catalog.Documented
import ModelQuery.Catalog.Standard
import ModelQuery.Command.Request
import ModelQuery.Command.Store
import ModelQuery.Criteria.Documented
import ModelQuery.Criteria.Filter
import ModelQuery.Report.Page

/-! What all commands have in common: the settings they run under, and how they come by filters,
models and catalogs. -/

namespace ModelQuery.Command

variable {m : Type → Type} [Monad m] [Host m]

/-- What a command runs under. -/
structure Context where
  json : Bool
  colors : Bool
  quiet : Bool
  /-- The file of the settings. -/
  file : String
  settings : Settings
  deriving DecidableEq, Repr

/-- How many ids a page shows unless something else is said. -/
def defaultPageSize : Nat := 50

/-- The most ids to show, `none` standing for all. -/
def Context.limit (context : Context) (window : Window) : Option Nat :=
  if window.all then none
  else some ((window.limit.or context.settings.pageSize).getD defaultPageSize)

def Context.showPage (context : Context) (page : Page) : String :=
  if context.json then (Report.pageDocument page).pretty ++ "\n"
  else Report.pageText context.colors page

def orFail {ε α : Type} (blame : ε → Failure) (result : Except ε α) : ExceptT Failure m α :=
  ExceptT.mk (pure (result.mapError blame))

/-- The filter that criteria in a text stand for. -/
def criteriaFilter (text : String) : Except Failure String :=
  match Criteria.ofText? text with
  | none => .error .malformedCriteria
  | some criteria => (criteria.filter.map String.ofList).mapError .criteria

def readFilter : Source → ExceptT Failure m String
  | .filter text => return text
  | .criteria path => do
    let text ← attempt .source (if path = "-" then Host.input else Host.read path)
    orFail id (criteriaFilter text)

def loadModel (path : String) : ExceptT Failure m Model := do
  let text ← attempt (.unreadable path ·) (Host.read path)
  orFail .model (Model.ofText text)

/-- The catalog in a file, or the standard one if no file is named. -/
def loadCatalog : Option String → ExceptT Failure m Catalog
  | none => return Catalog.standard
  | some path => do
    let text ← attempt (.unreadable path ·) (Host.read path)
    orFail .model (Catalog.ofText text)

end ModelQuery.Command
