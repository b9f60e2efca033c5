import ModelQuery.Catalog.Basic

/-! The catalog that is used when none is given: the common categories of building models. -/

namespace ModelQuery.Catalog

private def property (kind : Kind) (name : String) (aliases : List String) : Property :=
  ⟨name, kind, aliases⟩

/-- The properties of every category. -/
def commonProperties : List Property := [
  property .text "GUID" [],
  property .text "NAME" [],
  property .text "CLASS" [],
  property .integer "PHASE" [],
  property .text "COMMENT" []]

private def category (name : String) (aliases : List String) (properties : List Property) :
    Category :=
  ⟨name, aliases, false, commonProperties ++ properties⟩

def standard : Catalog where
  categories := [
    category "Part" ["Beam", "PolyBeam", "ContourPlate", "Plate"] [
      property .text "PROFILE" [],
      property .text "MATERIAL" ["GRADE"],
      property .text "FINISH" [],
      property .text "PART_POS" ["POSITION"],
      property .text "ASSEMBLY_POS" [],
      property .number "LENGTH" [],
      property .number "WIDTH" [],
      property .number "HEIGHT" [],
      property .number "WEIGHT" [],
      property .boolean "IS_MAIN_PART" ["MAIN_PART"]],
    category "Bolt" ["BoltGroup", "BoltArray", "BoltCircle", "BoltXYList"] [
      property .number "SIZE" ["DIAMETER"],
      property .text "STANDARD" [],
      property .number "LENGTH" [],
      property .integer "NUMBER_OF_BOLTS" ["BOLT_COUNT"],
      property .boolean "IS_SHOP" ["SHOP_BOLT"]],
    category "Assembly" ["PrecastAssembly", "SteelAssembly"] [
      property .text "ASSEMBLY_POS" ["POSITION"],
      property .text "MAIN_PART" [],
      property .number "WEIGHT" [],
      property .number "LENGTH" [],
      property .text "SERIES" []],
    category "Reinforcement" ["Rebar", "SingleRebar", "RebarGroup", "RebarMesh"] [
      property .text "GRADE" [],
      property .number "SIZE" ["DIAMETER"],
      property .integer "NUMBER_OF_BARS" [],
      property .number "LENGTH" [],
      property .number "WEIGHT" [],
      property .text "SHAPE" []],
    category "Weld" ["PolygonWeld"] [
      property .number "SIZE_ABOVE" [],
      property .number "SIZE_BELOW" [],
      property .text "TYPE_ABOVE" [],
      property .number "LENGTH" [],
      property .boolean "IS_SHOP" ["SHOP_WELD"]],
    { category "Object" ["Any", "All"] [] with wildcard := true }]

end ModelQuery.Catalog
