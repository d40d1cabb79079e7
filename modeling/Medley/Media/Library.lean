import Medley.Media.Order

/-!
# Media libraries

A media library answers compiled queries with rows.  A `MemoryLibrary` holds media with their
properties and evaluates the predicate of a query on each of them; the query has the meaning of its
SQL text.  What a random order comes to is drawn anew whenever a query is executed, so an answer
depends on a draw.
-/

namespace Medley

/-- A draw of a random order: an arrangement of any media that it is asked for. -/
structure Draw where
  arrange : List Medium → List Medium
  perm : ∀ media, (arrange media).Perm media

/-- The draw that leaves media as they are. -/
instance : Inhabited Draw := ⟨⟨id, .refl⟩⟩

/-- Something that answers queries, with a draw for each answer. -/
structure MediaLibrary where
  name : String
  execute : Draw → CompiledQuery → Except Error (List Row)

/-- The library of a registry that has none: no query can be answered. -/
def MediaLibrary.absent : MediaLibrary where
  name := "No Media Library"
  execute _ _ := fail (.notSupported "No Media Library can't execute queries")

/-- The first of all elements that have the same image. -/
def distinctBy {α β : Type} [DecidableEq β] (image : α → β) : List α → List α
  | [] => []
  | element :: rest =>
      element :: (distinctBy image rest).filter fun other => image other ≠ image element

/-- The elements in a range; a length of zero means to the end. -/
def Range.slice {α : Type} (range : Range) (elements : List α) : List α :=
  let rest := elements.drop range.start.toNat
  if range.length = 0 then rest else rest.take range.length.toNat

namespace CompiledQuery

/-- Whether a medium has what a query joins without it being optional: the base field, and the
properties that filters compare. -/
def joinsMedium (query : CompiledQuery) (medium : Medium) : Bool :=
  (query.baseField.isEmpty || medium.properties.contains query.baseField) &&
  query.aliases.all fun entry =>
    entry.kind != .property || entry.optional || medium.properties.contains entry.field

/-- Whether a query selects a medium.  The predicate is evaluated only on media that are joined. -/
def selects (query : CompiledQuery) (medium : Medium) : Except Error Bool :=
  if query.joinsMedium medium then
    return (← query.predicate.evaluate medium) == some true
  else return false

/-- The row of a medium: the fields asked for, or its id if there are none. -/
def row (query : CompiledQuery) (medium : Medium) : Row :=
  if query.fetch.isEmpty then SortedMap.ofList [("id", .integer medium.id)]
  else SortedMap.ofList <| query.fetch.filterMap fun entry =>
    (medium.value? entry.column).map fun value => (entry.field, value)

/-- What a query leaves of the media that it selects: the first of each group of values. -/
def grouped (query : CompiledQuery) (selected : List Medium) : List Medium :=
  if query.groupBy.isEmpty then selected
  else distinctBy (fun medium => query.groupBy.map medium.value?) selected

/-- Whether one of the orders of a query is random. -/
def shuffles (query : CompiledQuery) : Bool := query.orderBy.any (·.key = .random)

/-- Media in the order of a query.  If that is random, they are shuffled before they are sorted, and
media that the other keys do not tell apart stay as they were drawn. -/
def sorted (query : CompiledQuery) (draw : Draw) (media : List Medium) : List Medium :=
  OrderBy.sort query.orderBy (if query.shuffles then draw.arrange media else media)

/-- The range of some media that a query asks for. -/
def cut (query : CompiledQuery) (media : List Medium) : List Medium :=
  query.limit.elim media (·.slice media)

/-- The media that a query finds among some, under a draw. -/
def find (query : CompiledQuery) (draw : Draw) (media : List Medium) :
    Except Error (List Medium) := do
  let selected ← media.filterM query.selects
  return query.cut (query.sorted draw (query.grouped selected))

end CompiledQuery

/-- Media with their properties, by their ids. -/
abbrev MemoryLibrary := SortedMap Int64 Properties

namespace MemoryLibrary

/-- The library with a property of a medium set; the medium is added if it is not there. -/
def setProperty (library : MemoryLibrary) (id : Int64) (key : String) (value : Value) :
    MemoryLibrary :=
  library.insert id (((library.get? id).getD ∅).insert key value)

/-- The media in the order of their ids. -/
def media (library : MemoryLibrary) : List Medium :=
  library.entries.map fun (id, properties) => ⟨id, properties⟩

/-- The rows that answer a query, under a draw. -/
def execute (library : MemoryLibrary) (draw : Draw) (query : CompiledQuery) :
    Except Error (List Row) := do
  return (← query.find draw library.media).map query.row

/-- The media as a library that answers queries. -/
def toMediaLibrary (library : MemoryLibrary) : MediaLibrary where
  name := "Memory Media Library"
  execute := library.execute

end MemoryLibrary

end Medley
