import ModelQuery.Catalog.Resolve
import ModelQuery.Command.Basic
import ModelQuery.Report.Compiled

/-! The command that compiles a filter without a model and shows what became of it. -/

namespace ModelQuery.Command

variable {m : Type → Type} [Monad m] [Host m]

/-- Shows a compiled filter. -/
def Context.showCompiled {P : Type} (context : Context) (text : P → String)
    (document : P → Document) (report : Report.Compiled P) : String :=
  if context.json then (report.document document).pretty ++ "\n"
  else report.text context.colors text

/-- The value of a step that may have been left out. -/
def whenAsked {α : Type} (asked : Bool) (step : Except Fault α) : Except Fault (Option α) :=
  if asked then some <$> step else .ok none

/-- Tokens and tree are made first, so that their faults come first. -/
def compileWith {P : Type} (resolve : Resolver P) (filter : String) (route : Route)
    (tokens : Option (List Placed)) (tree : Option Tree) :
    Except Fault (Report.Compiled P) := do
  return ⟨filter, route, tokens, tree, ← compileAlong resolve filter.toList route⟩

def compile (context : Context) (inspection : Inspection) : ExceptT Failure m String := do
  let filter ← readFilter inspection.source
  let route := inspection.route.getD (Route.ofFilter filter.toList)
  let tokens ← orFail .filter (whenAsked inspection.tokens (tokenize filter.toList))
  let tree ← orFail .filter (whenAsked inspection.tree (Tree.ofFilter filter.toList))
  if inspection.resolve then
    let catalog ← loadCatalog (inspection.catalog.or context.settings.catalog)
    let report ← orFail .filter (compileWith catalog.resolver filter route tokens tree)
    return context.showCompiled Predicate.render Report.predicateDocument report
  else
    let report ← orFail .filter (compileWith Resolver.verbatim filter route tokens tree)
    return context.showCompiled Clause.render Report.clauseDocument report

end ModelQuery.Command
