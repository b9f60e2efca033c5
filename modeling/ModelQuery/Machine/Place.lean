/-! Places in a tree of folders. -/

namespace ModelQuery

/-- Where something lies, told by the names that lead there, innermost first. How many there are is
kept beside them, so that places of different depth are told apart without a look at the names. -/
structure Place where
  depth : Nat
  names : List String
  depth_eq : depth = names.length
  deriving DecidableEq, Repr

namespace Place

/-- The place without a name, in which all others lie. -/
def root : Place := ⟨0, [], rfl⟩

/-- The place of a name in a folder. -/
def inside (place : Place) (name : String) : Place :=
  ⟨place.depth + 1, name :: place.names, congrArg (· + 1) place.depth_eq⟩

/-- The place of the folder in which something lies; the root lies in itself. -/
def around : Place → Place
  | ⟨depth + 1, _ :: names, h⟩ => ⟨depth, names, Nat.succ.inj h⟩
  | ⟨0, [], _⟩ => root

theorem around_inside (place : Place) (name : String) : (place.inside name).around = place := rfl

theorem inside_ne_root (place : Place) (name : String) : place.inside name ≠ root :=
  fun h => by simpa [inside, root] using congrArg depth h

end Place

end ModelQuery
