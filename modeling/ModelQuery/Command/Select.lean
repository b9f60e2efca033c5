import ModelQuery.Catalog.Query
import ModelQuery.Command.Basic

/-! The commands on selections: to make one from a model, and to show a page of one. -/

namespace ModelQuery.Command

variable {m : Type → Type} [Monad m] [Host m]

/-- The selections with the lifetime that the settings ask for, if they do. -/
def withConfiguredLifetime (lifetime : Option Int64) (selections : Selections) :
    Except SettingsFault Selections :=
  match lifetime with
  | none => .ok selections
  | some seconds =>
    if 1 ≤ seconds ∧ seconds ≤ Selections.maxLifetime then .ok (selections.setLifetime seconds)
    else .error (.lifetime seconds)

/-- Keeps ids in the store under a fresh token, and returns a page of them. -/
def keep (context : Context) (window : Window) (ids : List String) :
    ExceptT Failure m Page := do
  let store ← Store.find
  let stored ← store.load
  let stored := stored.purge (← ExceptT.lift Host.now)
  let stored ← orFail .settings (withConfiguredLifetime context.settings.lifetime stored)
  let token ← ExceptT.lift Host.freshToken
  let stored := stored.create token ids (← ExceptT.lift Host.now)
  match stored.page? token window.offset (context.limit window) (← ExceptT.lift Host.now) with
  | (_, none) => throw (.noSelection token)
  | (stored, some page) =>
    store.save stored
    return page

def select (context : Context) (search : Search) : ExceptT Failure m String := do
  let filter ← readFilter search.source
  let path ← orFail .settings (match search.model.or context.settings.model with
    | some path => .ok path
    | none => .error .noModel)
  let model ← loadModel path
  let catalog ← loadCatalog (search.catalog.or context.settings.catalog)
  let ids ← orFail .filter (model.selectFilter catalog filter.toList)
  return context.showPage (← keep context search.window ids)

/-- Shows a page. If that found expired selections, the store is freed of them. -/
def page (context : Context) (token : String) (window : Window) : ExceptT Failure m String := do
  let store ← Store.find
  let stored ← store.load
  let (stored, found) :=
    stored.page? token window.offset (context.limit window) (← ExceptT.lift Host.now)
  let now ← ExceptT.lift Host.now
  if found.isNone || 0 < stored.expiredCount now then store.save (stored.purge now)
  match found with
  | none => throw (.noSelection token)
  | some page => return context.showPage page

end ModelQuery.Command
