import RouteDocs.Infer.Endpoint
import RouteDocs.Proofs.Docs.Codec
import RouteDocs.Proofs.Render.OpenApi
import RouteDocs.Render.Markdown

/-!
# Statements about Authentication Agree

Whether clients must identify themselves is decided for the endpoint, for its headers, for its
operation in an OpenAPI document and for its lines on a Markdown page, each time from other data.
All of them say what the source of the handler says.

## Main Definitions

* `RequestHeader.AuthorizationFirst`: the lists that begin with the one authorization header
* `Endpoint.Agrees`: the endpoints whose parts say the same about authentication
* `OpenApi.operationParameters`, `OpenApi.IsAuthorizationHeader`: what a client sees of an operation
* `Markdown.authenticationLine`, `Markdown.pageLines`: the line about authentication, and the page

## Main Statements

* `RequestHeader.authorizationFirst_listed`: reading headers by name keeps the authorization header
  in the first place
* `ParsedRoute.agrees_endpoint`: the parts of an inferred endpoint agree
* `OpenApi.security_isSome`, `OpenApi.not_isAuthorizationHeader`: what an operation says
* `Markdown.exists_authenticationLine`: where the line about authentication stands
* `ParsedRoute.authentication_agrees`: **all statements about authentication agree**
-/

namespace RouteDocs

/-! ### Authentication -/

namespace Authentication

theorem classify_ne_none (source : Text) : classify source ≠ .none := by
  rw [classify]
  split
  · exact nofun
  · split <;> exact nofun

/-- What is demanded in some way is required in this way. -/
theorem demanded_of_ne_none {kind : AuthKind} (ne : kind ≠ .none) (login : Text) :
    (demanded kind login).required = true ∧ (demanded kind login).kind = kind := by
  cases kind with
  | none => exact absurd rfl ne
  | bearer => exact ⟨rfl, rfl⟩
  | apiKey => exact ⟨rfl, rfl⟩
  | basic => exact ⟨rfl, rfl⟩

variable (ctx : RouteContext)

theorem required_infer : (infer ctx).required = isDemanded ctx.source := by
  rw [infer]
  split
  · next marked =>
    rw [marked]
    exact (demanded_of_ne_none (classify_ne_none _) _).1
  · next unmarked => exact (Bool.eq_false_iff.mpr unmarked).symm

theorem kind_infer_ne_none_iff : (infer ctx).kind ≠ .none ↔ isDemanded ctx.source = true := by
  rw [infer]
  split
  · next marked =>
    rw [(demanded_of_ne_none (classify_ne_none _) _).2]
    exact ⟨fun _ => marked, fun _ => classify_ne_none _⟩
  · next unmarked => exact ⟨fun ne => absurd rfl ne, fun marked => absurd marked unmarked⟩

end Authentication

/-! ### Headers -/

namespace RequestHeader

/-- The lists of headers that begin with an authorization header, required or not, and have no
other one. -/
def AuthorizationFirst (required : Bool) (hs : List RequestHeader) : Prop :=
  ∃ h more, hs = h :: more ∧ isNamed "Authorization" h = true ∧ h.required = required ∧
    ∀ g ∈ more, isNamed "Authorization" g = false

variable {required : Bool} {hs : List RequestHeader}

/-- A header that is read by name is not a second authorization header. -/
theorem AuthorizationFirst.addRead (first : AuthorizationFirst required hs) (name : Text) :
    AuthorizationFirst required (addRead hs name) := by
  obtain ⟨h, more, rfl, named, req, others⟩ := first
  rw [RequestHeader.addRead]
  split
  · exact ⟨h, more, rfl, named, req, others⟩
  · next new =>
    refine ⟨h, more ++ [_], rfl, named, req, fun g mem => ?_⟩
    rcases List.mem_append.mp mem with mem | mem
    · exact others g mem
    · obtain rfl := List.mem_singleton.mp mem
      refine Bool.eq_false_iff.mpr fun same => new ?_
      have twice : isNamed name h = true :=
        beq_iff_eq.mpr ((eq_of_beq named).trans (eq_of_beq same).symm)
      rw [List.any_cons, twice, Bool.true_or]

/-- **The authorization header comes first** among the headers that a text reads. -/
theorem authorizationFirst_listed (source : Text) : AuthorizationFirst false (listed source) := by
  rw [listed]
  generalize first : List.map _ common = hs
  have known : AuthorizationFirst false hs := by
    rw [← first]
    exact ⟨_, _, rfl, by decide +kernel, rfl, by decide +kernel⟩
  clear first
  induction readNames source generalizing hs with
  | nil => exact known
  | cons name names ih => exact ih _ (known.addRead name)

/-- The authorization header is required if authentication is demanded. -/
theorem authorizationFirst_infer {ctx : RouteContext} (read : infer ctx = some hs) :
    AuthorizationFirst (Authentication.isDemanded ctx.source) hs := by
  rw [infer] at read
  split at read
  · cases read
  · dsimp only at read
    split at read
    · next marked =>
      cases read
      refine ⟨requiredAuthorization, _, rfl, by decide +kernel, marked.symm, fun g mem => ?_⟩
      simpa using List.of_mem_filter mem
    · next unmarked =>
      cases read
      rw [Bool.eq_false_iff.mpr unmarked]
      exact authorizationFirst_listed ctx.source

end RequestHeader

/-! ### Endpoints -/

/-- The endpoints whose parts say the same about authentication, in so far as renderers look at
them. -/
structure Endpoint.Agrees (e : Endpoint) : Prop where
  /-- Something is said, and a way is named if authentication is required. -/
  authentication : ∃ a, e.authentication = some a ∧ a.required = e.requiresAuth ∧
    (a.kind ≠ .none ↔ e.requiresAuth = true)
  /-- The authorization header comes first, and is required if authentication is. -/
  headers : ∀ hs, e.requestHeaders = some hs → RequestHeader.AuthorizationFirst e.requiresAuth hs
  /-- Headers are not among the parameters. -/
  parameters : ∀ p ∈ e.parameters, p.location ≠ .header

namespace Parameter

variable {ctx : RouteContext} {p : Parameter}

theorem location_of_mem_annotated {content : Text} {location : Location}
    {default : Option Location} (mem : p ∈ annotated content location default) :
    p.location = location := by
  obtain ⟨a, -, rfl⟩ := List.mem_map.mp mem
  rfl

theorem location_of_mem_ofUrl {url : Text} (mem : p ∈ ofUrl url) : p.location = .path := by
  obtain ⟨name, -, rfl⟩ := List.mem_map.mp mem
  rfl

/-- A query parameter is annotated or stands for the whole query. -/
theorem mem_ofQuery (mem : p ∈ ofQuery ctx) :
    (∃ default, p ∈ annotated ctx.source .query default) ∨
      p = ⟨"query", "object", false, .query, some "Query parameters", .null⟩ := by
  rw [ofQuery] at mem
  split at mem
  · cases mem
  · split at mem
    · exact Or.inr (List.mem_singleton.mp mem)
    · exact Or.inl ⟨_, mem⟩

/-- A body parameter is annotated or stands for the whole body. -/
theorem mem_ofBody (mem : p ∈ ofBody ctx) :
    (∃ default, p ∈ annotated ctx.source .body default) ∨
      p = ⟨"body", "object", true, .body, some "Request body", .null⟩ := by
  rw [ofBody] at mem
  split at mem
  · cases mem
  · split at mem
    · exact Or.inr (List.mem_singleton.mp mem)
    · exact Or.inl ⟨_, mem⟩

theorem location_of_mem_ofQuery (mem : p ∈ ofQuery ctx) : p.location = .query := by
  rcases mem_ofQuery mem with ⟨_, mem⟩ | rfl
  · exact location_of_mem_annotated mem
  · rfl

theorem location_of_mem_ofBody (mem : p ∈ ofBody ctx) : p.location = .body := by
  rcases mem_ofBody mem with ⟨_, mem⟩ | rfl
  · exact location_of_mem_annotated mem
  · rfl

/-- Headers are no parameters of a handler. -/
theorem location_ne_header (mem : p ∈ infer ctx) : p.location ≠ .header := by
  rw [infer, List.mem_append, List.mem_append] at mem
  rcases mem with (mem | mem) | mem
  · rw [location_of_mem_ofUrl mem]
    exact nofun
  · rw [location_of_mem_ofQuery mem]
    exact nofun
  · rw [location_of_mem_ofBody mem]
    exact nofun

end Parameter

namespace ParsedRoute

variable (route : ParsedRoute) (login : Option Text)

theorem requiresAuth_endpoint : (route.endpoint login).requiresAuth =
    Authentication.isDemanded (Handler.source route.content route.method) :=
  Authentication.required_infer (route.context login)

/-- **The parts of an inferred endpoint agree.** -/
theorem agrees_endpoint : (route.endpoint login).Agrees where
  authentication := by
    refine ⟨_, rfl, rfl, ?_⟩
    rw [requiresAuth_endpoint]
    exact Authentication.kind_infer_ne_none_iff (route.context login)
  headers := by
    intro hs read
    rw [requiresAuth_endpoint]
    exact RequestHeader.authorizationFirst_infer read
  parameters := fun _ mem => Parameter.location_ne_header mem

end ParsedRoute

/-! ### OpenAPI -/

namespace OpenApi

/-- The parameters of an operation. -/
def operationParameters (operation : Json) : List Json :=
  (operation.part "parameters").items

/-- The operation parameters that are an authorization header, without regard to case. -/
def IsAuthorizationHeader (parameter : Json) : Prop :=
  parameter.part "in" = .str "header" ∧
    ∃ name, parameter.part "name" = .str name ∧ Text.lower name = "authorization"

variable {e : Endpoint} {tag : Text}

/-- An endpoint demands a scheme if it demands authentication. -/
theorem demandedScheme?_eq (agrees : e.Agrees) : ∃ a, e.authentication = some a ∧
    demandedScheme? e = if e.requiresAuth then securityScheme? a.kind else none := by
  obtain ⟨a, given, required, -⟩ := agrees.authentication
  exact ⟨a, given, by rw [demandedScheme?, given, Option.bind_some, required]⟩

theorem securityScheme?_isSome {kind : AuthKind} (ne : kind ≠ .none) :
    (securityScheme? kind).isSome = true := by
  cases kind <;> first | rfl | exact absurd rfl ne

/-- A name belongs to the scheme of one way. -/
theorem kind_unique {kind kind' : AuthKind}
    (same : (securityScheme? kind).map (·.1) = (securityScheme? kind').map (·.1)) :
    kind = kind' := by
  cases kind <;> cases kind' <;> first | rfl | exact absurd same (by decide)

/-- **An operation has security if authentication is demanded.** -/
theorem security_isSome (agrees : e.Agrees) :
    ((securedOperation e tag).members.get? "security").isSome = e.requiresAuth := by
  obtain ⟨a, given, demanded⟩ := demandedScheme?_eq agrees
  obtain ⟨a', given', -, way⟩ := agrees.authentication
  obtain rfl : a = a' := Option.some.inj (given.symm.trans given')
  rw [securedOperation, demanded]
  cases auth : e.requiresAuth with
  | false =>
      rw [if_neg Bool.false_ne_true, Json.members, get?_operation_security]
      rfl
  | true =>
      obtain ⟨⟨name, scheme⟩, found⟩ :=
        Option.isSome_iff_exists.mp (securityScheme?_isSome (way.mpr auth))
      rw [if_pos rfl, found, Json.members, Assoc.get?_append, get?_operation_security]
      rfl

/-- The scheme that an operation names is the one of its endpoint, and the document defines it. -/
theorem exists_scheme {d : Documentation} (agrees : e.Agrees) (listed : e ∈ d.endpoints)
    (auth : e.requiresAuth = true) : ∃ a name scheme, e.authentication = some a ∧
      securityScheme? a.kind = some (name, scheme) ∧
      securityNames (securedOperation e tag) = [name] ∧
      (schemes (document d)).get? name = some scheme := by
  obtain ⟨a, given, demanded⟩ := demandedScheme?_eq agrees
  obtain ⟨a', given', -, way⟩ := agrees.authentication
  obtain rfl : a = a' := Option.some.inj (given.symm.trans given')
  obtain ⟨⟨name, scheme⟩, found⟩ :=
    Option.isSome_iff_exists.mp (securityScheme?_isSome (way.mpr auth))
  rw [auth, if_pos rfl, found] at demanded
  obtain ⟨kind, scheme', found', defined⟩ := exists_scheme_of_demanded d listed demanded
  obtain rfl : kind = a.kind := kind_unique (by rw [found, found']; rfl)
  obtain ⟨-, rfl⟩ := Prod.mk.inj (Option.some.inj (found.symm.trans found'))
  refine ⟨a, name, scheme, given, found, ?_, defined⟩
  rw [securityNames_securedOperation, demanded]
  rfl

theorem get?_operation_parameters : Assoc.get? "parameters" (operation e tag) =
    if (parameters e).isEmpty then none else some (.arr (parameters e)) := by
  simp only [operation, Assoc.get?_append]
  rw [get?_textMember (by decide), get?_valueMember (by decide)]
  split
  · rfl
  · rfl

/-- The parameters of an operation are those of its endpoint. -/
theorem operationParameters_operation :
    operationParameters (.obj (operation e tag)) = parameters e := by
  rw [operationParameters, Json.part, Json.members, get?_operation_parameters]
  split
  · next empty => exact (List.isEmpty_iff.mp empty).symm
  · rfl

/-- The security of an operation does not count among its parameters. -/
theorem operationParameters_securedOperation :
    operationParameters (securedOperation e tag) = parameters e := by
  have secured : Assoc.get? "parameters" (securedOperation e tag).members =
      Assoc.get? "parameters" (operation e tag) := by
    rw [securedOperation]
    split
    · rw [Json.members, Assoc.get?_append]
      exact Option.or_none
    · rfl
  rw [operationParameters, Json.part, secured]
  exact operationParameters_operation

/-- **No parameter of an operation is an authorization header.** -/
theorem not_isAuthorizationHeader (agrees : e.Agrees) {parameter : Json}
    (mem : parameter ∈ operationParameters (securedOperation e tag)) :
    ¬IsAuthorizationHeader parameter := by
  rw [operationParameters_securedOperation, parameters, List.mem_append] at mem
  rintro ⟨place, name, named, same⟩
  rcases mem with mem | mem
  · obtain ⟨p, kept, rfl⟩ := List.mem_map.mp mem
    have located : p.location.name = Location.header.name := Json.str.inj place
    have same := congrArg Location.ofName? located
    rw [Location.ofName?_name, Location.ofName?_name] at same
    exact agrees.parameters p (List.mem_of_mem_filter kept) (Option.some.inj same)
  · obtain ⟨h, kept, rfl⟩ := List.mem_map.mp mem
    obtain rfl : h.name = name := Json.str.inj named
    simpa [same] using List.of_mem_filter kept

end OpenApi

/-! ### Markdown -/

namespace Markdown

/-- The line that tells how clients identify themselves. -/
def authenticationLine (a : Authentication) : Text :=
  "**Authentication:** " ++ a.kind.name ++ " ("
    ++ code (a.headerName.getD "None" ++ ": " ++ a.headerFormat.getD "None") ++ ")"

/-- The lines of a page. -/
def pageLines (d : Documentation) : List Text :=
  infoLines d ++ (groupByTag d.endpoints).flatMap fun (tag, es) => groupLines tag es

/-- A page is made of its lines. -/
theorem render_eq (d : Documentation) :
    render d = Text.trimRight CodePoint.isBlank (Text.join "\n" (pageLines d)) ++ "\n" := rfl

/-- The lines of an endpoint stand on the page. -/
theorem endpointLines_infix {d : Documentation} {e : Endpoint} (listed : e ∈ d.endpoints) :
    endpointLines e <:+: pageLines d := by
  have inGroup : e ∈ d.endpoints.filter (·.groupTag == e.groupTag) :=
    List.mem_filter.mpr ⟨listed, beq_self_eq_true _⟩
  have group : (e.groupTag, d.endpoints.filter (·.groupTag == e.groupTag)) ∈
      groupByTag d.endpoints :=
    mem_groupBy_iff.mpr ⟨⟨e, listed, rfl⟩, rfl⟩
  calc endpointLines e
      <:+: (d.endpoints.filter (·.groupTag == e.groupTag)).flatMap endpointLines :=
        List.infix_of_mem_flatten (List.mem_map_of_mem inGroup)
    _ <:+: groupLines e.groupTag (d.endpoints.filter (·.groupTag == e.groupTag)) :=
        (List.suffix_append [_, _] _).isInfix
    _ <:+: (groupByTag d.endpoints).flatMap fun (tag, es) => groupLines tag es :=
        List.infix_of_mem_flatten (List.mem_map_of_mem group)
    _ <:+: pageLines d := (List.suffix_append _ _).isInfix

/-- The lines of an endpoint before what is said about authentication. -/
def headingLines (e : Endpoint) : List Text :=
  ["### " ++ e.method ++ " " ++ e.url, []]
    ++ linesFor (if e.title == e.description then none else e.title) (fun t => ["**" ++ t ++ "**", []])
    ++ linesFor e.description (fun t => [t, []])

/-- The lines of an endpoint after what is said about authentication. -/
def detailLines (e : Endpoint) : List Text :=
  parameterLines e.parameters
    ++ (headerLines (e.requestHeaders.getD [])
      ++ (bodyLines e.requestBody
        ++ (responsesLines e.responses ++ ["**File:** " ++ code e.file, [], "---", []])))

theorem endpointLines_eq (e : Endpoint) :
    endpointLines e = headingLines e ++ authenticationLines e.authentication ++ detailLines e := by
  simp only [endpointLines, headingLines, detailLines, List.append_assoc]

/-- **The line about authentication is there if authentication is demanded.** The other lines are
those of an endpoint about whose authentication nothing is said. -/
theorem exists_authenticationLine {e : Endpoint} (agrees : e.Agrees) :
    ∃ a before after, e.authentication = some a ∧
      endpointLines { e with authentication := none } = before ++ after ∧
      endpointLines e =
        before ++ (if e.requiresAuth then [authenticationLine a, []] else []) ++ after := by
  obtain ⟨a, given, required, -⟩ := agrees.authentication
  refine ⟨a, headingLines e, detailLines e, given, ?_, ?_⟩
  · rw [endpointLines_eq, authenticationLines, List.append_nil]
    rfl
  · rw [endpointLines_eq, given, authenticationLines, required]
    rfl

end Markdown

/-! ### All Statements -/

namespace ParsedRoute

open OpenApi (place operations securityNames schemes operationParameters)

/-- **All statements about authentication agree.** In the endpoint of a route they say whether the
source of the handler shows a sign of authentication. The authorization header comes first among
the headers, is the only one of this name and is required if authentication is. If the endpoint is
the only one of a documentation with its path and method, then its operation has security exactly
if authentication is required, by a scheme that the document defines, and no authorization header
among its parameters; and its lines on the Markdown page are those of an endpoint about whose
authentication nothing is said, with one line more exactly if authentication is required. -/
theorem authentication_agrees (route : ParsedRoute) (login : Option Text) :
    let e := route.endpoint login
    let marked := Authentication.isDemanded (Handler.source route.content route.method)
    e.requiresAuth = marked ∧
      (∃ a, e.authentication = some a ∧ a.required = marked ∧ (a.kind ≠ .none ↔ marked = true)) ∧
      (∀ hs, e.requestHeaders = some hs → RequestHeader.AuthorizationFirst e.requiresAuth hs) ∧
      ∀ d : Documentation, d.endpoints.filter (place · == place e) = [e] →
        (∃ op, (∀ op', (place e, op') ∈ operations (OpenApi.document d) ↔ op' = op) ∧
          (op.members.get? "security").isSome = e.requiresAuth ∧
          (e.requiresAuth = true → ∃ a name scheme, e.authentication = some a ∧
            OpenApi.securityScheme? a.kind = some (name, scheme) ∧ securityNames op = [name] ∧
            (schemes (OpenApi.document d)).get? name = some scheme) ∧
          ∀ parameter ∈ operationParameters op, ¬OpenApi.IsAuthorizationHeader parameter) ∧
        Markdown.endpointLines e <:+: Markdown.pageLines d ∧
        ∃ a before after, e.authentication = some a ∧
          Markdown.endpointLines { e with authentication := none } = before ++ after ∧
          Markdown.endpointLines e = before ++
            (if e.requiresAuth then [Markdown.authenticationLine a, []] else []) ++ after := by
  intro e marked
  have agrees : e.Agrees := agrees_endpoint route login
  have flag : e.requiresAuth = marked := requiresAuth_endpoint route login
  refine ⟨flag, flag ▸ agrees.authentication, agrees.headers, fun d only => ?_⟩
  have listed : e ∈ d.endpoints := by
    have mem : e ∈ d.endpoints.filter (place · == place e) := by simp [only]
    exact List.mem_of_mem_filter mem
  refine ⟨⟨OpenApi.ownOperation e, fun op' => ?_, OpenApi.security_isSome agrees,
    OpenApi.exists_scheme agrees listed, fun parameter => OpenApi.not_isAuthorizationHeader agrees⟩,
    Markdown.endpointLines_infix listed, Markdown.exists_authenticationLine agrees⟩
  -- Whatever stands at the place of the endpoint is the operation of the only endpoint there.
  constructor
  · intro stands
    obtain ⟨e', listed', same, rfl⟩ := OpenApi.exists_endpoint_of_mem d stands
    have mem : e' ∈ d.endpoints.filter (place · == place e) :=
      List.mem_filter.mpr ⟨listed', beq_iff_eq.mpr same⟩
    rw [only] at mem
    rw [List.mem_singleton.mp mem]
  · rintro rfl
    obtain ⟨e', listed', same, stands⟩ := OpenApi.exists_endpoint_of_place d listed
    have mem : e' ∈ d.endpoints.filter (place · == place e) :=
      List.mem_filter.mpr ⟨listed', beq_iff_eq.mpr same⟩
    rw [only] at mem
    rwa [List.mem_singleton.mp mem] at stands

/-- A handler that reads headers for itself and is protected by a wrapper. -/
def protectedRoute : ParsedRoute :=
  ⟨"GET", "/api/me", "me/route.ts", "export const GET = withAuth(headers())"⟩

theorem authentication_agrees_protected :
    let e := protectedRoute.endpoint none
    let d : Documentation := ⟨Info.default, [e], 1, "2024-05-01T12:00:00"⟩
    d.endpoints.filter (place · == place e) = [e] ∧ e.requiresAuth = true ∧
      ∃ op, (place e, op) ∈ operations (OpenApi.document d) ∧
        (op.members.get? "security").isSome = true ∧ securityNames op = ["bearerAuth"] := by
  intro e d
  obtain ⟨flag, -, -, rendered⟩ := authentication_agrees protectedRoute none
  have marked : Authentication.isDemanded
      (Handler.source protectedRoute.content protectedRoute.method) = true := by decide +kernel
  have only : d.endpoints.filter (place · == place e) = [e] := by simp [d]
  obtain ⟨⟨op, own, security, named, -⟩, -⟩ := rendered d only
  obtain ⟨a, name, scheme, given, found, names, -⟩ := named (flag.trans marked)
  have kind : a.kind = .bearer := by
    rw [← Option.some.inj given]
    decide +kernel
  rw [kind] at found
  obtain ⟨rfl, -⟩ := Prod.mk.inj (Option.some.inj found)
  exact ⟨only, flag.trans marked, op, (own op).mpr rfl, security.trans (flag.trans marked), names⟩

end ParsedRoute

end RouteDocs
