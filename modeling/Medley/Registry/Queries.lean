import Medley.Query.Compile
import Medley.Registry.Basic

/-!
# Asking a registry

Collections are checked, compiled against the stored ones and answered by the media library.  Every
query that is executed has a draw of its own for what it orders at random.
-/

namespace Medley.Registry

variable {σ : Type}

/-- The collection that a pattern describes; words without a field are searched in the configured
fields. -/
def parse (registry : Registry σ) (pattern : String) : Except Error Shape :=
  Pattern.parse registry.config.autofilterFields pattern

/-- The query of a tree that passes the checks. -/
def compile (registry : Registry σ) (tree : Node) (params : QueryParams) :
    Except Error CompiledQuery := do
  registry.validate tree none
  registry.state.compile registry.config.defaultBaseField tree params

/-- The rows that answer a query, under a draw. -/
def query (registry : Registry σ) (draw : Draw) (tree : Node) (params : QueryParams) :
    Except Error (List Row) := do
  registry.library.execute draw (← registry.compile tree params)

/-- The request for ids alone. -/
def idParams : QueryParams := { fetch := ["id"] }

/-- The id in a row. -/
def rowId (registry : Registry σ) (row : Row) : Except Error Int64 :=
  match (row.get? "id").bind Value.toInteger? with
  | some id => .ok id
  | none =>
      fail (.executionFailed (registry.library.name ++ " returned a row without media id"))

/-- The ids of the media in a tree, in an order and cut to a range, under a draw. -/
def queryIds (registry : Registry σ) (draw : Draw) (tree : Node) (order : List String)
    (start length : UInt64) : Except Error (List Int64) := do
  let wrap : Fresh Node := do (← tree.orderedBy order).limitedBy start length
  let rows ← registry.query draw (wrap registry.nextIdentity).1 idParams
  rows.mapM registry.rowId

/-- A collection of the medium with an id, if it is in a stored collection. -/
def membership (id : Int64) (address : Address) : Fresh Node := do
  let source := Tree.reference (← Medley.fresh) address.name address.space.name
  return .unary (← Medley.fresh) (.withAttributes (.filter .equals)
    [(Key.type, "id"), (Key.value, Text.writeInt64 id)]) source

/-- The names in a namespace of the collections that have a medium, under a draw for the query of each.
The name that stands for the active playlist is left out.  Everything is compiled before anything is
executed. -/
def find (registry : Registry σ) (draws : String → Draw) (id : Int64) (space : Namespace) :
    Except Error (List String) := do
  let names := (registry.list space).filter fun name =>
    !(space == .playlists && name == activeName)
  let queries ← names.mapM fun name => do
    let tree := (membership id ⟨space, name⟩ registry.nextIdentity).1
    return (name, ← registry.compile tree idParams)
  let found ← queries.filterM fun (name, compiled) => do
    return !(← registry.library.execute (draws name) compiled).isEmpty
  return found.map Prod.fst

/-- The id of the medium in a tree that is drawn. -/
def random (registry : Registry σ) (draw : Draw) (tree : Node) : Except Error (Option Int64) := do
  return (← registry.queryIds draw tree ["random"] 0 1).head?

/-- The id of the medium of the library that is drawn. -/
def randomOfAll (registry : Registry σ) (draw : Draw) : Except Error (Option Int64) :=
  registry.random draw ((do return .reference (← Medley.fresh) allMedia "" : Fresh Node)
    registry.nextIdentity).1

end Medley.Registry
