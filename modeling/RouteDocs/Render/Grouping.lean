import RouteDocs.Docs.Model

/-!
# Groups of Endpoints

Endpoints in groups, in the order in which the groups first occur.

## Main Definitions

* `groupBy`: the groups of a list by a key
* `Endpoint.groupTag`: the key of groups by tag
* `Endpoint.category`: the key of groups by URL
-/

namespace RouteDocs

/-- The groups with one more element, at the end of the group of its key. -/
def addToGroup {α : Type} (key : Text) (x : α) : Assoc (List α) → Assoc (List α)
  | [] => [(key, [x])]
  | (k, xs) :: more =>
    if k == key then (k, xs ++ [x]) :: more else (k, xs) :: addToGroup key x more

/-- The groups of a list by a key: each key in the order of its first element, each group in the
order of the list. -/
def groupBy {α : Type} (key : α → Text) (xs : List α) : Assoc (List α) :=
  xs.foldl (fun groups x => addToGroup (key x) x groups) []

namespace Endpoint

/-- The first tag of an endpoint, or a general one. -/
def groupTag (e : Endpoint) : Text :=
  e.tags.head?.getD "General"

/-- The first segment of a URL below the API root, or a general category. -/
def categoryOf (url : Text) : Text :=
  match (url.splitOn '/')[2]? with
  | some part => if part.isEmpty then "general" else part
  | none => "general"

/-- The category of an endpoint. -/
def category (e : Endpoint) : Text :=
  categoryOf e.url

end Endpoint

/-- Endpoints by tag. -/
def groupByTag (es : List Endpoint) : Assoc (List Endpoint) :=
  groupBy Endpoint.groupTag es

/-- Endpoints by category. -/
def groupByCategory (es : List Endpoint) : Assoc (List Endpoint) :=
  groupBy Endpoint.category es

end RouteDocs
