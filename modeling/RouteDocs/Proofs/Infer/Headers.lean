import Mathlib.Data.List.Nodup
import RouteDocs.Proofs.Infer.Authentication
import RouteDocs.Proofs.Text.Search

/-!
# The List of Headers Is Complete

A handler that reads a header by name is known to read headers. The list of its headers begins with
the common ones, goes on with those that it reads by name, in order, and has none of them twice, in
whatever letter case they are spelled.

## Main Definitions

* `RequestHeader.firstSpellings`: texts without those that are there before in another spelling
* `RequestHeader.customNames`: the names that are read and are not those of common headers
* `RequestHeader.Complete`: the lists of headers that hold all that is read, and nothing twice

## Main Statements

* `RequestHeader.areRead_of_occursIn`: no header that is read by name slips past the markers
* `RequestHeader.foldl_addRead`, `RequestHeader.listed_eq`: what is listed
* `RequestHeader.infer_eq`: the headers of a handler
* `RequestHeader.complete_infer`: **the list of headers is complete and has nothing twice**

## Design Notes

Headers are added one after another, each compared with all that are there. What comes of it is said
by another recursion, on the names that are read: a name is kept, and its other spellings are
removed from what follows. So the first spelling is the one that is kept.
-/

namespace RouteDocs

namespace RequestHeader

open Pattern

variable {source name : Text} {hs : List RequestHeader}

/-! ### The Markers -/

/-- **No header that is read by name slips past the markers.** -/
theorem areRead_of_occursIn
    (occurs : indexedRead.occursIn source = true ∨ calledRead.occursIn source = true) :
    areRead source = true := by
  have marked (p : Pattern) (mem : p ∈ markers) (occurs : p.occursIn source = true) :
      areRead source = true := List.any_eq_true.mpr ⟨p, mem, occurs⟩
  rcases occurs with indexed | called
  · have bracket := occursIn_of_append (occursIn_of_append (occursIn_of_append
      (occursIn_of_append indexed)))
    exact marked _ (.tail _ (.tail _ (.tail _ (.head _)))) bracket
  · have getter := occursIn_of_append (occursIn_of_append (occursIn_of_append
      (occursIn_of_append called)))
    obtain ⟨c, y, whole, z, ⟨w, ⟨v, edge, word⟩, call⟩, get⟩ := occursIn_iff.mp getter
    rcases call with ⟨u, ⟨s, opening, gap⟩, closing⟩ | none
    · have call : (wordEdge ++ lit "headers(" ++ blanks ++ lit ")").Reads (c, []) z :=
        ⟨u, ⟨s, ⟨v, edge, word.lit_append opening⟩, gap⟩, closing⟩
      exact marked _ (.head _) (occursIn_iff.mpr ⟨c, z, whole, call⟩)
    · obtain rfl : z = w := none
      have direct : (wordEdge ++ lit "headers.get(").Reads (c, []) y :=
        ⟨v, edge, word.lit_append get⟩
      exact marked _ (.tail _ (.tail _ (.head _))) (occursIn_iff.mpr ⟨c, y, whole, direct⟩)

/-! ### Spellings -/

/-- The texts in order, without those that are there before in another spelling. -/
def firstSpellings : List Text → List Text
  | [] => []
  | t :: more => t :: (firstSpellings more).filter fun u => Text.lower u != Text.lower t

theorem firstSpellings_sublist (ts : List Text) : (firstSpellings ts).Sublist ts := by
  induction ts with
  | nil => exact .slnil
  | cons t more ih => exact (List.filter_sublist.trans ih).cons_cons t

/-- No text is kept in two spellings. -/
theorem nodup_firstSpellings (ts : List Text) : ((firstSpellings ts).map Text.lower).Nodup := by
  induction ts with
  | nil => exact List.nodup_nil
  | cons t more ih =>
      refine List.nodup_cons.mpr ⟨fun again => ?_, ih.sublist (List.filter_sublist.map _)⟩
      obtain ⟨u, kept, same⟩ := List.mem_map.mp again
      exact bne_iff_ne.mp (List.mem_filter.mp kept).2 same

/-- Every text is kept in some spelling. -/
theorem exists_mem_firstSpellings {t : Text} {ts : List Text} (mem : t ∈ ts) :
    ∃ u ∈ firstSpellings ts, Text.lower u = Text.lower t := by
  induction ts with
  | nil => cases mem
  | cons s more ih =>
      by_cases same : Text.lower t = Text.lower s
      · exact ⟨s, List.mem_cons_self, same.symm⟩
      · rcases List.mem_cons.mp mem with rfl | later
        · exact absurd rfl same
        · obtain ⟨u, kept, eq⟩ := ih later
          refine ⟨u, List.mem_cons_of_mem _ (List.mem_filter.mpr ⟨kept, ?_⟩), eq⟩
          exact bne_iff_ne.mpr (eq ▸ same)

/-- **The first spelling is the one that is kept.** -/
theorem find?_of_mem_firstSpellings {t : Text} {ts : List Text} (mem : t ∈ firstSpellings ts) :
    ts.find? (fun u => Text.lower u == Text.lower t) = some t := by
  induction ts with
  | nil => cases mem
  | cons s more ih =>
      rcases List.mem_cons.mp mem with rfl | later
      · exact List.find?_cons_of_pos (beq_self_eq_true _)
      · obtain ⟨kept, other⟩ := List.mem_filter.mp later
        have apart : ¬(Text.lower s == Text.lower t) = true := fun same =>
          bne_iff_ne.mp other (eq_of_beq same).symm
        exact (List.find?_cons_of_neg (p := fun u => Text.lower u == Text.lower t) apart).trans
          (ih kept)

/-! ### What Is Listed -/

/-- The header of a name that is read. -/
def ofRead (name : Text) : RequestHeader := ⟨name, false, some ("Custom header: " ++ name)⟩

/-- A header has a name in every spelling. -/
theorem isNamed_congr {name name' : Text} (same : Text.lower name = Text.lower name') :
    isNamed name = isNamed name' :=
  funext fun h => congrArg (Text.lower h.name == ·) same

/-- **Adding names one after another** adds their first spellings, unless they are there. -/
theorem foldl_addRead (names : List Text) (hs : List RequestHeader) : names.foldl addRead hs =
    hs ++ ((firstSpellings names).filter fun name => !hs.any (isNamed name)).map ofRead := by
  induction names generalizing hs with
  | nil => exact (List.append_nil hs).symm
  | cons name more ih =>
      rw [List.foldl_cons, ih, firstSpellings]
      by_cases there : hs.any (isNamed name) = true
      · have kept : addRead hs name = hs := if_pos there
        rw [kept, List.filter_cons_of_neg (by simp [there]), List.filter_filter]
        refine congrArg (fun names => hs ++ names.map ofRead) (List.filter_congr fun u _ => ?_)
        by_cases same : Text.lower u = Text.lower name
        · rw [isNamed_congr same, there]
          rfl
        · rw [bne_iff_ne.mpr same, Bool.and_true]
      · have added : addRead hs name = hs ++ [ofRead name] := if_neg there
        rw [added, List.filter_cons_of_pos (by simpa using there), List.filter_filter,
          List.map_cons, List.append_assoc]
        refine congrArg (fun names => hs ++ ofRead name :: names.map ofRead)
          (List.filter_congr fun u _ => ?_)
        have last : [ofRead name].any (isNamed u) = (Text.lower u == Text.lower name) :=
          (Bool.or_false _).trans (Bool.beq_comm)
        rw [List.any_append, Bool.not_or, last]
        rfl

/-- The names of the common headers. -/
def commonNames : List Text := common.map (·.1)

/-- The names that are read, each in its first spelling, without those of the common headers. -/
def customNames (source : Text) : List Text :=
  (firstSpellings (readNames source)).filter fun name =>
    !commonNames.any fun other => Text.lower other == Text.lower name

/-- What is listed: the common headers and those that are read by other names. -/
theorem listed_eq (source : Text) : listed source =
    (common.map fun entry => ⟨entry.1, false, some entry.2⟩)
      ++ (customNames source).map ofRead := by
  rw [listed, foldl_addRead]
  rfl

theorem names_listed (source : Text) :
    (listed source).map (·.name) = commonNames ++ customNames source := by
  rw [listed_eq, List.map_append, List.map_map, List.map_map]
  exact congrArg (commonNames ++ ·) (List.map_id _)

/-- What is listed is not required. -/
theorem required_listed {h : RequestHeader} (mem : h ∈ listed source) : h.required = false := by
  rw [listed_eq, List.mem_append] at mem
  rcases mem with mem | mem
  · obtain ⟨_, -, rfl⟩ := List.mem_map.mp mem
    rfl
  · obtain ⟨_, -, rfl⟩ := List.mem_map.mp mem
    rfl

/-- **No name is listed in two spellings.** -/
theorem nodup_listed (source : Text) :
    ((commonNames ++ customNames source).map Text.lower).Nodup := by
  rw [List.map_append, List.nodup_append]
  refine ⟨by decide +kernel, (nodup_firstSpellings _).sublist (List.filter_sublist.map _), ?_⟩
  rintro t common _ custom rfl
  obtain ⟨other, mem, rfl⟩ := List.mem_map.mp common
  obtain ⟨name, kept, same⟩ := List.mem_map.mp custom
  refine absurd (List.mem_filter.mp kept).2 ?_
  rw [Bool.not_eq_true, Bool.not_eq_false', List.any_eq_true]
  exact ⟨other, mem, beq_iff_eq.mpr same.symm⟩

/-- **Every name that is read is listed** in some spelling. -/
theorem exists_mem_names (read : name ∈ readNames source) :
    ∃ other ∈ commonNames ++ customNames source, Text.lower other = Text.lower name := by
  obtain ⟨first, kept, same⟩ := exists_mem_firstSpellings read
  by_cases known : (commonNames.any fun other => Text.lower other == Text.lower first) = true
  · obtain ⟨other, mem, eq⟩ := List.any_eq_true.mp known
    exact ⟨other, List.mem_append_left _ mem, (eq_of_beq eq).trans same⟩
  · refine ⟨first, List.mem_append_right _ (List.mem_filter.mpr ⟨kept, ?_⟩), same⟩
    rw [Bool.eq_false_iff.mpr known]
    rfl

/-! ### The Headers of a Handler -/

/-- The authorization header, required or not. -/
def authorization (required : Bool) : RequestHeader := { requiredAuthorization with required }

/-- **The headers of a handler** are those that are listed, with the first one required if
authentication is demanded. -/
theorem infer_eq (ctx : RouteContext) : infer ctx =
    if areRead ctx.source then
      some (authorization (Authentication.isDemanded ctx.source) :: (listed ctx.source).tail)
    else none := by
  rw [infer]
  cases areRead ctx.source with
  | false => rfl
  | true =>
      obtain ⟨h, more, list, named, -, others⟩ := authorizationFirst_listed ctx.source
      cases demanded : Authentication.isDemanded ctx.source with
      | false =>
          have first : listed ctx.source = authorization false :: (listed ctx.source).tail := by
            rw [listed_eq]
            rfl
          exact congrArg some first
      | true =>
          have left : (listed ctx.source).filter (fun h => !isNamed "Authorization" h) =
              (listed ctx.source).tail := by
            rw [list, List.filter_cons_of_neg (by simpa using named), List.tail_cons]
            exact List.filter_eq_self.mpr fun g mem => by rw [others g mem]; rfl
          exact congrArg (fun more => some (requiredAuthorization :: more)) left

/-- **The lists of headers that hold all that a text reads**, and nothing twice. -/
structure Complete (source : Text) (hs : List RequestHeader) : Prop where
  /-- The common headers come first, and then those that are read by other names. -/
  names : hs.map (·.name) = commonNames ++ customNames source
  /-- No header is there in two spellings. -/
  distinct : (hs.map fun h => Text.lower h.name).Nodup
  /-- Every header that is read is there in some spelling. -/
  read : ∀ name ∈ readNames source, ∃ h ∈ hs, isNamed name h = true
  /-- The custom headers are in the order in which they are read. -/
  order : (customNames source).Sublist (readNames source)
  /-- A custom header has the spelling in which it is read first. -/
  spelling : ∀ name ∈ customNames source,
    (readNames source).find? (fun other => Text.lower other == Text.lower name) = some name
  /-- There is one authorization header, the first one, required if authentication is demanded. -/
  authorization : AuthorizationFirst (Authentication.isDemanded source) hs
  /-- No other header is required. -/
  optional : ∀ h ∈ hs, h.required = true → isNamed "Authorization" h = true

/-- A list of headers with the names that are listed is complete. -/
theorem complete_of_names (names : hs.map (·.name) = commonNames ++ customNames source)
    (authorization : AuthorizationFirst (Authentication.isDemanded source) hs)
    (optional : ∀ h ∈ hs, h.required = true → isNamed "Authorization" h = true) :
    Complete source hs where
  names := names
  distinct := by
    have distinct := nodup_listed source
    rwa [← names, List.map_map] at distinct
  read := by
    intro name read
    obtain ⟨other, mem, same⟩ := exists_mem_names read
    rw [← names] at mem
    obtain ⟨h, there, rfl⟩ := List.mem_map.mp mem
    exact ⟨h, there, beq_iff_eq.mpr same⟩
  order := List.filter_sublist.trans (firstSpellings_sublist _)
  spelling := fun name mem => find?_of_mem_firstSpellings (List.mem_filter.mp mem).1
  authorization := authorization
  optional := optional

/-- **The list of headers is complete and has nothing twice**: a handler that reads a header by name
has one, and if there is one, it begins with the common headers, goes on with the other ones that
are read and requires at most the first one, the authorization header. -/
theorem complete_infer (ctx : RouteContext) :
    ((indexedRead.occursIn ctx.source = true ∨ calledRead.occursIn ctx.source = true) →
      infer ctx ≠ none) ∧
      ∀ hs, infer ctx = some hs → Complete ctx.source hs := by
  constructor
  · intro occurs
    rw [infer_eq, areRead_of_occursIn occurs]
    exact Option.some_ne_none _
  · intro hs eq
    have list := eq
    rw [infer_eq, Option.ite_none_right_eq_some] at list
    obtain rfl := Option.some.inj list.2
    refine complete_of_names ?_ (authorizationFirst_infer eq) ?_
    · rw [← names_listed, listed_eq]
      rfl
    · rintro h (_ | ⟨_, later⟩) required
      · exact beq_self_eq_true _
      · rw [required_listed (List.mem_of_mem_tail later)] at required
        cases required

/-- A handler that reads some headers in several spellings. -/
def spelled : RouteContext where
  method := "GET"
  url := "/api/me"
  file := "me/route.ts"
  content := "const a = headers.get( 'x-trace' ) || headers().get('X-Tenant') || headers['ACCEPT'];\n" ++
    "const b = headers[\"x-tenant\"] || headers['X-TENANT'];\nif (!b) return unauthorized();"
  ownPart := none
  handlerOffset := none
  loginEndpoint := RouteContext.defaultLogin

theorem complete_infer_spelled : indexedRead.occursIn spelled.source = true ∧
    ∃ hs, infer spelled = some hs ∧ Complete spelled.source hs ∧ hs.map (·.name) =
      ["Authorization", "Content-Type", "Accept", "User-Agent", "X-API-Key", "X-Request-ID",
        "x-tenant", "x-trace"] := by
  have occurs : indexedRead.occursIn spelled.source = true := by decide +kernel
  obtain ⟨known, complete⟩ := complete_infer spelled
  obtain ⟨hs, list⟩ := Option.ne_none_iff_exists'.mp (known (.inl occurs))
  exact ⟨occurs, hs, list, complete hs list, (complete hs list).names.trans (by decide +kernel)⟩

end RequestHeader

end RouteDocs
