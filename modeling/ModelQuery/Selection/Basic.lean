import ModelQuery.Keyed
import ModelQuery.Selection.Instant

/-! Selections: lists of ids that are kept under tokens until they expire. Every look at them tells
what time it is, and a look at an expired selection removes it. -/

namespace ModelQuery

/-- One kept list of ids. -/
structure Selection where
  ids : List String
  created : Instant
  expires : Instant
  deriving DecidableEq, Repr, Inhabited

/-- A selection is expired from its last moment on. -/
def Selection.isExpired (selection : Selection) (now : Instant) : Bool :=
  !now.before selection.expires

/-- A window of a selection. -/
structure Page where
  token : String
  /-- How many ids the whole selection has. -/
  total : Nat
  offset : Nat
  ids : List String
  deriving DecidableEq, Repr, Inhabited

namespace Page

/-- Where the next page starts. -/
def next (page : Page) : Nat :=
  page.offset + page.ids.length

def hasMore (page : Page) : Bool :=
  page.next < page.total

end Page

structure Selections where
  /-- The lifetime of new selections in seconds, as it was given. -/
  lifetime : Int64
  stored : Keyed Selection
  deriving DecidableEq, Repr

namespace Selections

/-- The lifetime that selections have unless another is given. -/
def defaultLifetime : Int64 := 600

/-- No selection lives longer than ten years of 365 days. -/
def maxLifetime : Int64 := 315360000

/-- Keeps a lifetime between nothing and ten years. -/
def clamp (seconds : Int64) : Int64 :=
  if seconds < 0 then 0 else if maxLifetime < seconds then maxLifetime else seconds

def empty : Selections := ⟨defaultLifetime, []⟩

/-- No selections yet, and a lifetime for new ones. -/
def withLifetime (seconds : Int64) : Selections := ⟨clamp seconds, []⟩

/-- Changes the lifetime of new selections. -/
def setLifetime (selections : Selections) (seconds : Int64) : Selections :=
  { selections with lifetime := clamp seconds }

/-- Keeps ids under a token. -/
def create (selections : Selections) (token : String) (ids : List String) (now : Instant) :
    Selections :=
  { selections with
    stored := selections.stored.insert token
      ⟨ids, now, now.plus (clamp selections.lifetime).toInt⟩ }

/-- The ids under a token, with what is left of the selections. -/
def ids? (selections : Selections) (token : String) (now : Instant) :
    Selections × Option (List String) :=
  match selections.stored.get? token with
  | none => (selections, none)
  | some selection =>
    if selection.isExpired now then
      ({ selections with stored := selections.stored.erase token }, none)
    else (selections, some selection.ids)

/-- At most `limit` of the ids under a token, from `offset` on, with what is left of the
selections. -/
def page? (selections : Selections) (token : String) (offset : Nat) (limit : Option Nat)
    (now : Instant) : Selections × Option Page :=
  let (left, ids) := selections.ids? token now
  (left, ids.map fun ids =>
    let rest := ids.drop offset
    ⟨token, ids.length, offset, match limit with
      | some limit => rest.take limit
      | none => rest⟩)

/-- Removes what is expired. -/
def purge (selections : Selections) (now : Instant) : Selections :=
  { selections with stored := selections.stored.filter fun entry => !entry.2.isExpired now }

/-- How many selections a purge removes. -/
def expiredCount (selections : Selections) (now : Instant) : Nat :=
  selections.stored.length - (selections.purge now).stored.length

end Selections

end ModelQuery
