import ModelQuery.Catalog.Resolve
import ModelQuery.Filter.Compile

/-! Running compiled filters over models. -/

namespace ModelQuery

/-- Whether an object satisfies a plan. -/
def Plan.accepts (plan : Plan Predicate) (object : Object) : Bool :=
  plan.holds (·.holds object)

/-- The ids of the objects that satisfy a plan, in the order of the model. -/
def Model.select (model : Model) (plan : Plan Predicate) : List String :=
  (model.objects.filter plan.accepts).map Object.id

/-- The ids of the objects that satisfy a filter. -/
def Model.selectFilter (model : Model) (catalog : Catalog) (filter : List Char) :
    Except Fault (List String) := do
  return model.select (← compile catalog.resolver filter)

end ModelQuery
