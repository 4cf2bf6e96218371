import RouteDocs.Proofs.Render.OperationId

/-!
# URLs Are Canonical

The URL of any path, seen from any root, is the API root with segments below it that have a slash
before each of them.  None of the segments is empty, the directory itself or a group, so that the
path in an OpenAPI document and the category can be read off the URL.

## Main Definitions

* `Route.Grouping`: the segments in parentheses, which group files
* `Route.Canonical`: the URLs of segments that can stand in a URL

## Main Statements

* `Route.Canonical.apiRoot_path`: a path below the API root is what follows the root in the URL
* `Route.Canonical.categoryOf_eq`: the category is the first segment
* `Route.url_canonical`: **every URL is canonical**
-/

namespace RouteDocs

namespace Route

variable {u : Text} {ps : List Text} {t : Text}

/-- The segments in parentheses, which group files. -/
def Grouping (t : Text) : Prop :=
  ∃ name, t = "(" ++ name ++ ")"

/-- A group is what stands in parentheses. -/
theorem isGroup_iff_grouping : isGroup t = true ↔ Grouping t := by
  rw [isGroup, Bool.and_eq_true]
  constructor
  · rintro ⟨begins, ends⟩
    obtain ⟨r, rfl⟩ := List.isPrefixOf_iff_prefix.mp begins
    obtain ⟨before, eq⟩ := List.isSuffixOf_iff_suffix.mp ends
    cases before with
    | nil => exact absurd (List.cons.inj eq).1 (by decide)
    | cons c name =>
        obtain ⟨rfl, rfl⟩ := List.cons.inj eq
        exact ⟨name, rfl⟩
  · rintro ⟨name, rfl⟩
    exact ⟨List.isPrefixOf_iff_prefix.mpr ⟨name ++ ")", rfl⟩,
      List.isSuffixOf_iff_suffix.mpr (List.suffix_append _ _)⟩

/-- **The canonical URLs**: the API root, and segments below it with a slash before each. -/
structure Canonical (ps : List Text) (u : Text) : Prop where
  /-- The URL is made of the segments. -/
  whole : u = rooted ps
  /-- The URL has these segments and no other ones. -/
  pieces : u.splitOn '/' = [] :: "api" :: ps
  /-- No segment is empty. -/
  nonempty : ∀ part ∈ ps, part ≠ []
  /-- No segment has a slash. -/
  single : ∀ part ∈ ps, ('/' : CodePoint) ∉ part
  /-- No segment has a backslash. -/
  straight : ∀ part ∈ ps, ('\x5c' : CodePoint) ∉ part
  /-- No segment is the directory itself. -/
  elsewhere : ∀ part ∈ ps, part ≠ "."
  /-- No segment is a group. -/
  ungrouped : ∀ part ∈ ps, ¬Grouping part

/-- The segments of a URL are what it was made of. -/
theorem splitOn_rooted (single : ∀ part ∈ ps, ('/' : CodePoint) ∉ part) :
    (rooted ps).splitOn '/' = [] :: "api" :: ps := by
  have single' : ∀ part ∈ ("api" : Text) :: ps, ('/' : CodePoint) ∉ part := by
    intro part mem
    rcases List.mem_cons.mp mem with rfl | mem
    · decide
    · exact single part mem
  exact Text.splitOn_append_flatMap (t := []) List.not_mem_nil single'

/-- What is made of parts is canonical. -/
theorem canonical_rooted (hp : ∀ part ∈ ps, IsPart part) : Canonical ps (rooted ps) where
  whole := rfl
  pieces := splitOn_rooted fun part mem => (hp part mem).single
  nonempty part mem := (isUrlSegment_iff.mp (hp part mem).kept).1
  single part mem := (hp part mem).single
  straight part mem slash := (hp part mem).straight _ slash rfl
  elsewhere part mem := (isUrlSegment_iff.mp (hp part mem).kept).2.1
  ungrouped part mem group :=
    (isUrlSegment_iff.mp (hp part mem).kept).2.2 (isGroup_iff_grouping.mpr group)

/-- There are no backslashes in a canonical URL. -/
theorem Canonical.not_mem (canonical : Canonical ps u) : ('\x5c' : CodePoint) ∉ u := by
  rw [canonical.whole, rooted, List.mem_append, List.mem_flatMap, not_or]
  refine ⟨by decide, ?_⟩
  rintro ⟨part, mem, inside⟩
  rcases List.mem_cons.mp inside with slash | inside
  · exact absurd slash (by decide)
  · exact canonical.straight part mem inside

/-- The URL of the API root alone has the root path. -/
theorem Canonical.path_nil (canonical : Canonical [] u) : OpenApi.path u = "/" := by
  rw [canonical.whole, OpenApi.path_rooted]
  rfl

/-- **A path below the API root** is what follows the root in the URL, and begins with a slash. -/
theorem Canonical.apiRoot_path (canonical : Canonical ps u) (ne : ps ≠ []) :
    (OpenApi.path u).head? = some ('/' : CodePoint) ∧ apiRoot ++ OpenApi.path u = u := by
  obtain ⟨part, more, rfl⟩ := List.exists_cons_of_ne_nil ne
  have path : OpenApi.path u = (part :: more).flatMap fun part => ('/' : CodePoint) :: part := by
    rw [canonical.whole, OpenApi.path_rooted]
    rfl
  rw [path]
  refine ⟨rfl, ?_⟩
  rw [canonical.whole]
  rfl

/-- **The category is the first segment**, or the general one if there is none. -/
theorem Canonical.categoryOf_eq (canonical : Canonical ps u) :
    Endpoint.categoryOf u = ps.head?.getD "general" := by
  rw [Endpoint.categoryOf, canonical.pieces]
  cases ps with
  | nil => rfl
  | cons part more =>
      show (if part.isEmpty then ("general" : Text) else part) = part
      have nonempty : part.isEmpty = false :=
        List.isEmpty_eq_false_iff.mpr (canonical.nonempty part List.mem_cons_self)
      rw [nonempty, if_neg Bool.false_ne_true]

/-- What a path has below the API root are the segments of its URL. -/
theorem canonical_url (path : Text) (root : Option Text) :
    Canonical (parts (belowRoot (withSlashes path) root)) (url path root) := by
  rw [url_eq_rooted]
  exact canonical_rooted fun part mem => isPart_of_mem_parts_belowRoot mem

/-- **Every URL is canonical**, whatever the path and the root.  Its path in an OpenAPI document is
a slash alone, or begins with a slash and is what follows the API root; and its category is its
first segment, if there is one. -/
theorem url_canonical (path : Text) (root : Option Text) :
    ∃ ps, Canonical ps (url path root) ∧
      (ps = [] → OpenApi.path (url path root) = "/") ∧
      (ps ≠ [] → (OpenApi.path (url path root)).head? = some ('/' : CodePoint) ∧
        apiRoot ++ OpenApi.path (url path root) = url path root) ∧
      Endpoint.categoryOf (url path root) = ps.head?.getD "general" := by
  have canonical := canonical_url path root
  generalize parts (belowRoot (withSlashes path) root) = ps at canonical
  refine ⟨ps, canonical, ?_, canonical.apiRoot_path, canonical.categoryOf_eq⟩
  rintro rfl
  exact canonical.path_nil

/-- Stray brackets and parentheses do not make a group of a segment that was none. -/
example : url "app/api/([a]/./b)//(c)/[(d)]/route.ts" none = "/api/(\x7ba\x7d/b)/\x7b(d)\x7d" := by
  decide +kernel

end Route

end RouteDocs
