import ApiAtlas.Graph.Index
import ApiAtlas.Graph.Walk
import ApiAtlas.Report.Filter
set_option autoImplicit false

/-!
# The impact of a change

Which screens use an interface directly, and along which chain of first edges each of them leads
toward it.
-/

namespace ApiAtlas

/-- A screen that a change reaches. -/
structure ImpactedScreen where
  id : String
  label : String
  file : Option String
  path : List String
  deriving DecidableEq, Repr, Inhabited

/-- The screens that a change of an interface reaches. -/
structure Impact where
  api : String
  screens : List ImpactedScreen
  /-- How many indexed screens are not listed: the filter rejects them, or they are no nodes. -/
  filteredOut : Nat
  deriving DecidableEq, Repr, Inhabited

namespace Impact

/-- The entry of an indexed screen, if it is a node that the filter accepts. -/
def listed? (g : Graph) (api : String) (filter : Option ScreenFilter) (id : String) :
    Option ImpactedScreen := do
  let node ← g.node? id
  if filter.all (·.matchesLabel node.label) then
    some ⟨node.id, node.label, node.file?, g.chain node.id api⟩
  else none

/-- The impact of a change of an interface. -/
def of (g : Graph) (api : String) (filter : Option ScreenFilter) : Impact :=
  let indexed := g.index.screensFor api
  let screens := indexed.filterMap (listed? g api filter)
  ⟨api, screens, indexed.length - screens.length⟩

/-- No screen is indexed for the interface. -/
def isEmpty (i : Impact) : Bool := i.screens.isEmpty && i.filteredOut == 0

end Impact

end ApiAtlas
