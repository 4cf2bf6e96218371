import RouteDocs.Proofs.Render.FileName
import RouteDocs.Proofs.Render.OpenApi

/-!
# Names of Operations

An operation is named after its method and the segments of its path, with underscores between them
and without the braces of placeholders.  So two operations have one name if their paths differ in
nothing but braces, or in an underscore that stands for a slash.

## Main Definitions

* `OpenApi.names`: what the segments of a URL are in the name of an operation
* `OpenApi.operationIds`: the names of the operations of a document

## Main Statements

* `OpenApi.segments_path_rooted`: the segments of a path are the parts of its URL
* `OpenApi.perm_operations`: **endpoints with different places have one operation each**
* `OpenApi.operationId_eq_iff`: which operations have one name
* `OpenApi.nodup_operationIds_iff`: **when the names of operations are unique**
* `OpenApi.operationIds_clash`: two operations with one name

## Design Notes

Verbs have no underscores, so a name tells the verb and what follows it.  What follows tells the
segments only as long as these have no underscores.
-/

namespace RouteDocs

namespace OpenApi

open Route

variable {e e' : Endpoint} {d : Documentation} {ps qs : List Text}

/-! ### Paths and Their Segments -/

/-- The path of a URL that is made of parts. -/
theorem path_rooted (ps : List Text) :
    path (rooted ps) =
      if ps.isEmpty then ("/" : Text) else ps.flatMap fun part => ('/' : CodePoint) :: part := by
  have root : apiRoot.isPrefixOf (rooted ps) = true :=
    List.isPrefixOf_iff_prefix.mpr (List.prefix_append _ _)
  rw [path, if_pos root, rooted, List.drop_left]
  cases ps with
  | nil => rfl
  | cons part ps => rfl

/-- The segments of a path. -/
def segments (path : Text) : List Text :=
  (path.splitOn '/').filter fun p => !p.isEmpty

/-- **The segments of a path are the parts of its URL.** -/
theorem segments_path_rooted (hp : ∀ part ∈ ps, IsPart part) : segments (path (rooted ps)) = ps := by
  rw [path_rooted]
  cases ps with
  | nil => decide
  | cons part more =>
      have pieces := Text.splitOn_append_flatMap (t := []) List.not_mem_nil
        fun part mem => (hp part mem).single
      rw [List.nil_append] at pieces
      rw [if_neg nofun, segments, pieces, List.filter_cons_of_neg (by decide), List.filter_eq_self]
      intro part mem
      rw [Bool.not_eq_true', List.isEmpty_eq_false_iff]
      exact (isUrlSegment_iff.mp (hp part mem).kept).1

/-! ### Names -/

/-- The braces of placeholders. -/
def isBrace (c : CodePoint) : Bool := c.val == 0x7B || c.val == 0x7D

/-- What the segments of a URL are in the name of an operation. -/
def names (url : Text) : List Text :=
  (segments (path url)).map (Text.trim isBrace)

/-- What stands after the method in the name of an operation. -/
def ending (url : Text) : Text :=
  (names url).flatMap fun name => ('_' : CodePoint) :: name

theorem operationId_eq : operationId e = Text.lower e.method ++ ending e.url := by
  have joined : operationId e = Text.join ['_'] (Text.lower e.method :: names e.url) := rfl
  rw [joined, Text.join_eq_tail]
  rfl

/-- **Which operations have one name**: those of one verb whose segments are spelled alike. -/
theorem operationId_eq_iff {v w : Verb} (verb : e.method = v.name) (verb' : e'.method = w.name) :
    operationId e = operationId e' ↔ e.method = e'.method ∧ ending e.url = ending e'.url := by
  rw [operationId_eq, operationId_eq]
  constructor
  · intro eq
    have clean : ∀ v : Verb, ('_' : CodePoint) ∉ Text.lower v.name := by
      intro v
      cases v <;> decide +kernel
    have begins : ∀ url, ∀ c ∈ (ending url).head?, c = '_' := by
      intro url c hc
      unfold ending at hc
      generalize names url = ns at hc
      cases ns with
      | nil => cases hc
      | cons name more => exact (Option.some.inj hc).symm
    rw [verb, verb'] at eq ⊢
    obtain ⟨lower, same⟩ :=
      Text.append_injective_of_head (clean v) (clean w) (begins e.url) (begins e'.url) eq
    exact ⟨congrArg Verb.name (Folder.lower_name_injective lower), same⟩
  · rintro ⟨method, same⟩
    rw [method, same]

/-- Names without underscores are told by what they are spelled to. -/
theorem ending_eq_iff {url url' : Text} (clean : ∀ name ∈ names url, ('_' : CodePoint) ∉ name)
    (clean' : ∀ name ∈ names url', ('_' : CodePoint) ∉ name) :
    ending url = ending url' ↔ names url = names url' := by
  constructor
  · intro eq
    have pieces := Text.splitOn_append_flatMap (t := []) List.not_mem_nil clean
    have pieces' := Text.splitOn_append_flatMap (t := []) List.not_mem_nil clean'
    rw [← ending, eq, ending, pieces'] at pieces
    exact (List.cons.inj pieces).2.symm
  · intro eq
    rw [ending, eq, ending]

/-! ### The Operations of a Document -/

/-- The names of the operations of a document. -/
def operationIds (spec : Json) : List Json :=
  (operations spec).map fun cell => cell.2.part "operationId"

theorem part_operationId (e : Endpoint) :
    (ownOperation e).part "operationId" = .str (operationId e) := by
  rw [ownOperation, securedOperation]
  cases demandedScheme? e with
  | none => rfl
  | some scheme => rfl

/-- **Endpoints with different places have one operation each.** -/
theorem perm_operations (apart : (d.endpoints.map place).Nodup) :
    (operations (document d)).Perm (d.endpoints.map fun e => (place e, ownOperation e)) := by
  refine (List.perm_ext_iff_of_nodup (nodup_places_document d).of_map ?_).mpr fun ⟨p, op⟩ => ?_
  · refine List.Nodup.of_map (·.1) ?_
    rwa [List.map_map]
  · constructor
    · intro stands
      obtain ⟨e, listed, rfl, rfl⟩ := exists_endpoint_of_mem d stands
      exact List.mem_map_of_mem listed
    · intro mem
      obtain ⟨e, listed, same⟩ := List.mem_map.mp mem
      obtain ⟨e', listed', place', stands⟩ := exists_endpoint_of_place d listed
      rw [List.inj_on_of_nodup_map apart listed' listed place', same] at stands
      exact stands

/-- Endpoints with different methods or different URLs have different places. -/
theorem nodup_places (verbs : ∀ e ∈ d.endpoints, ∃ v : Verb, e.method = v.name)
    (urls : ∀ e ∈ d.endpoints, ∃ path root, e.url = Route.url path root)
    (apart : (d.endpoints.map fun e => (e.method, e.url)).Nodup) :
    (d.endpoints.map place).Nodup := by
  refine List.Nodup.map_on ?_ apart.of_map
  intro e mem e' mem' same
  obtain ⟨v, verb⟩ := verbs e mem
  obtain ⟨w, verb'⟩ := verbs e' mem'
  obtain ⟨file, root, url⟩ := urls e mem
  obtain ⟨file', root', url'⟩ := urls e' mem'
  obtain ⟨paths, methods⟩ := Prod.mk.inj same
  have method : e.method = e'.method := by
    rw [verb, verb'] at methods ⊢
    rw [Folder.lower_name_injective methods]
  have parts := congrArg segments paths
  rw [url, url', url_eq_rooted, url_eq_rooted,
    segments_path_rooted fun part mem => isPart_of_mem_parts_belowRoot mem,
    segments_path_rooted fun part mem => isPart_of_mem_parts_belowRoot mem] at parts
  have one : e.url = e'.url := by rw [url, url', url_eq_rooted, url_eq_rooted, parts]
  exact List.inj_on_of_nodup_map apart mem mem' (Prod.ext method one)

/-- **When the names of operations are unique.**  For endpoints of verbs, of which no two have one
method and one URL, the names are unique exactly if no two URLs of one method are spelled alike.
Where segments have no underscores, these are the URLs that differ in nothing but the braces around
their segments. -/
theorem nodup_operationIds_iff (verbs : ∀ e ∈ d.endpoints, ∃ v : Verb, e.method = v.name)
    (urls : ∀ e ∈ d.endpoints, ∃ path root, e.url = Route.url path root)
    (apart : (d.endpoints.map fun e => (e.method, e.url)).Nodup) :
    ((operationIds (document d)).Nodup ↔ ∀ e ∈ d.endpoints, ∀ e' ∈ d.endpoints,
      e.method = e'.method → ending e.url = ending e'.url → e.url = e'.url) ∧
    ((∀ e ∈ d.endpoints, ∀ name ∈ names e.url, ('_' : CodePoint) ∉ name) →
      ((operationIds (document d)).Nodup ↔ ∀ e ∈ d.endpoints, ∀ e' ∈ d.endpoints,
        e.method = e'.method → names e.url = names e'.url → e.url = e'.url)) := by
  have ids : (operationIds (document d)).Perm
      (d.endpoints.map fun e => .str (operationId e)) := by
    have perm := (perm_operations (nodup_places verbs urls apart)).map
      fun cell => cell.2.part "operationId"
    rw [List.map_map] at perm
    exact perm.trans (.of_eq (List.map_congr_left fun e _ => part_operationId e))
  have whole : (operationIds (document d)).Nodup ↔ ∀ e ∈ d.endpoints, ∀ e' ∈ d.endpoints,
      e.method = e'.method → ending e.url = ending e'.url → e.url = e'.url := by
    rw [ids.nodup_iff, List.nodup_map_iff_inj_on apart.of_map]
    constructor
    · intro unique e mem e' mem' method same
      obtain ⟨v, verb⟩ := verbs e mem
      obtain ⟨w, verb'⟩ := verbs e' mem'
      have named := (operationId_eq_iff verb verb').mpr ⟨method, same⟩
      rw [unique e mem e' mem' (congrArg Json.str named)]
    · intro unique e mem e' mem' named
      obtain ⟨v, verb⟩ := verbs e mem
      obtain ⟨w, verb'⟩ := verbs e' mem'
      obtain ⟨method, same⟩ := (operationId_eq_iff verb verb').mp (Json.str.inj named)
      exact List.inj_on_of_nodup_map apart mem mem'
        (Prod.ext method (unique e mem e' mem' method same))
  refine ⟨whole, fun clean => whole.trans ?_⟩
  refine forall₂_congr fun e mem => forall₂_congr fun e' mem' => imp_congr_right fun _ => ?_
  rw [ending_eq_iff (clean e mem) (clean e' mem')]

/-- Endpoints of one method, of which no URL is spelled like another one. -/
def apartUsers : Documentation where
  info := ⟨"Users", "1.0.0", none, none, none⟩
  endpoints := [tokenEndpoint "GET" (Route.url "src/app/api/users/[id]/route.ts" none) "users",
    tokenEndpoint "GET" (Route.url "src/app/api/users/route.ts" none) "users"]
  totalEndpoints := 2
  generatedAt := "2024-05-01T12:00:00"

theorem nodup_operationIds_apartUsers :
    (apartUsers.endpoints.map fun e => (e.method, e.url)).Nodup ∧
    (operationIds (document apartUsers)).Nodup := by
  have verbs : ∀ e ∈ apartUsers.endpoints, ∃ v : Verb, e.method = v.name :=
    List.forall_mem_cons.mpr ⟨⟨.get, rfl⟩, List.forall_mem_singleton.mpr ⟨.get, rfl⟩⟩
  have urls : ∀ e ∈ apartUsers.endpoints, ∃ path root, e.url = Route.url path root :=
    List.forall_mem_cons.mpr ⟨⟨"src/app/api/users/[id]/route.ts", none, rfl⟩,
      List.forall_mem_singleton.mpr ⟨"src/app/api/users/route.ts", none, rfl⟩⟩
  have apart : (apartUsers.endpoints.map fun e => (e.method, e.url)).Nodup := by decide +kernel
  refine ⟨apart, (nodup_operationIds_iff verbs urls apart).1.mpr ?_⟩
  decide +kernel

/-- A user and a page about the word. -/
def clashingUsers : Documentation where
  info := ⟨"Users", "1.0.0", none, none, none⟩
  endpoints := [tokenEndpoint "GET" (Route.url "src/app/api/users/[id]/route.ts" none) "users",
    tokenEndpoint "GET" (Route.url "src/app/api/users/id/route.ts" none) "users"]
  totalEndpoints := 2
  generatedAt := "2024-05-01T12:00:00"

/-- **Two operations with one name**, as placeholders lose their braces. -/
theorem operationIds_clash :
    (∀ e ∈ clashingUsers.endpoints, ∃ v : Verb, e.method = v.name) ∧
    (∀ e ∈ clashingUsers.endpoints, ∃ path root, e.url = Route.url path root) ∧
    (clashingUsers.endpoints.map fun e => (e.method, e.url)).Nodup ∧
    operationIds (document clashingUsers) = [.str "get_users_id", .str "get_users_id"] ∧
    ¬ (operationIds (document clashingUsers)).Nodup := by
  have ids : operationIds (document clashingUsers) =
      [.str "get_users_id", .str "get_users_id"] := by
    rfl
  refine ⟨List.forall_mem_cons.mpr ⟨⟨.get, rfl⟩, List.forall_mem_singleton.mpr ⟨.get, rfl⟩⟩,
    List.forall_mem_cons.mpr ⟨⟨"src/app/api/users/[id]/route.ts", none, rfl⟩,
      List.forall_mem_singleton.mpr ⟨"src/app/api/users/id/route.ts", none, rfl⟩⟩,
    by decide +kernel, ids, ?_⟩
  rw [ids]
  simp

end OpenApi

end RouteDocs
