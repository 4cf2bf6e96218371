import RouteDocs.Infer.Endpoint
import RouteDocs.Proofs.Json.Limits
import RouteDocs.Proofs.Render.JsonText
import RouteDocs.Proofs.Scan

/-!
# Numbers in Inferred Examples

The examples that are inferred for an endpoint have floating-point numbers in one place only: in
answers that a comment annotates.  There they are read from the annotation, which may write numbers
that JSON has no texts for.

## Main Definitions

* `Response.IsAnnotated`: the examples of the annotations of a source
* `Json.Floatless`: the values without floating-point numbers

## Main Statements

* `Response.floats_infer`: an inferred answer has no floating-point numbers, or is annotated
* `ParsedRoute.examplesIn_endpoint_iff`: **the numbers of an inferred endpoint**
* `Scan.isText_openApi_iff`: **when the document of a scan is JSON**
-/

namespace RouteDocs

open Json

/-- The values without floating-point numbers. -/
abbrev Json.Floatless (v : Json) : Prop := v.FloatsIn fun _ => False

variable {floats : Binary64 → Prop}

theorem Json.Floatless.floatsIn {v : Json} (h : v.Floatless) : v.FloatsIn floats :=
  h.mono fun _ none => none.elim

/-! ### Catalogue -/

namespace Catalog

theorem floatless_of_ofName? {name : Text} {v : Json} (found : ofName? name = some v) :
    v.Floatless := by
  have resource : ∀ p ∈ resources, p.2.Floatless := by
    simp [resources, workspace, task, issue, project, user, timestamp]
  have collection : ∀ p ∈ collections, p.2.Floatless := by
    simp [collections, workspace, task, issue, project, user, timestamp]
  unfold ofName? at found
  split at found
  · next v' held =>
    obtain rfl := Option.some.inj found
    simpa using collection _ (Assoc.mem_of_get? held)
  · split at found
    · next v' held =>
      obtain rfl := Option.some.inj found
      simpa using resource _ (Assoc.mem_of_get? held)
    · split at found
      · obtain rfl := Option.some.inj found
        simp
      · cases found

theorem floatless_of_lookup {names : List Text} {v : Json} (found : lookup names = some v) :
    v.Floatless := by
  unfold lookup at found
  split at found
  · obtain rfl := Option.some.inj found
    simp [page, project, timestamp]
  · cases known : names.findSome? ofName? with
    | some w =>
        rw [known] at found
        obtain rfl : w = v := Option.some.inj found
        obtain ⟨name, -, held⟩ := List.exists_of_findSome?_eq_some known
        exact floatless_of_ofName? held
    | none =>
        simp only [known, Option.orElse_none] at found
        split at found
        · obtain rfl := Option.some.inj found
          simp [success]
        · cases found

end Catalog

/-! ### Answers -/

namespace Response

variable {source : Text} {ctx : RouteContext} {found : Assoc Response}

/-- The examples that the annotations of a source give. -/
def IsAnnotated (source : Text) (v : Json) : Prop :=
  ∃ m ∈ note.findAll source, ∃ r, ofNote (m.group 1) (m.group 2) = .ok r ∧ r.example? = v

/-- Answers before annotations have no floating-point numbers. -/
theorem floatless_base : ∀ p ∈ base ctx, p.2.example?.Floatless := by
  unfold base
  split
  · next r seen =>
    obtain ⟨m, -, held⟩ := List.exists_of_findSome?_eq_some seen
    dsimp only at held
    split at held
    · cases held
    · obtain ⟨payload, known, rfl⟩ := Option.map_eq_some_iff.mp held
      exact List.forall_mem_singleton.mpr (Catalog.floatless_of_lookup known)
  · unfold defaults
    split <;> simp [simple]

/-- What is read from the annotations of a source is annotated. -/
theorem isAnnotated_of_annotated (read : annotated source = .ok found) :
    ∀ p ∈ found, IsAnnotated source p.2.example? := by
  have fold : ∀ ms : List Pattern.Match, (∀ m ∈ ms, m ∈ note.findAll source) →
      ∀ start : Assoc Response, (∀ p ∈ start, IsAnnotated source p.2.example?) →
      ms.foldlM (fun found m => (ofNote (m.group 1) (m.group 2)).map fun r =>
        Assoc.put (m.group 1) r found) start = .ok found →
      ∀ p ∈ found, IsAnnotated source p.2.example? := by
    intro ms
    induction ms with
    | nil =>
        intro _ start noted eq
        cases eq
        exact noted
    | cons m more ih =>
        intro mem start noted eq
        obtain ⟨first, mem⟩ := List.forall_mem_cons.mp mem
        rw [List.foldlM_cons] at eq
        cases given : ofNote (m.group 1) (m.group 2) with
        | error e =>
            rw [given] at eq
            cases eq
        | ok r =>
            rw [given] at eq
            refine ih mem _ (fun p hp => ?_) eq
            rcases Assoc.mem_put hp with rfl | hp
            · exact ⟨m, first, r, given, rfl⟩
            · exact noted p hp
  exact fold _ (fun m hm => hm) [] (List.forall_mem_nil _) read

/-- **An inferred answer has no floating-point numbers, or it is annotated.** -/
theorem floats_infer (inferred : infer ctx = .ok found) :
    ∀ p ∈ found, p.2.example?.Floatless ∨ IsAnnotated ctx.source p.2.example? := by
  obtain ⟨changes, read, rfl⟩ := map_eq_ok.mp inferred
  refine List.forall_mem_map.mpr fun p mem => ?_
  rcases (Assoc.foldl_put (base ctx)).1 p mem with old | new
  · exact Or.inl (floatless_base p old)
  · exact Or.inr (isAnnotated_of_annotated read p new)

/-- Numbers in annotations are read as numbers of the format. -/
theorem IsAnnotated.canonical {v : Json} (h : IsAnnotated source v) :
    v.FloatsIn Binary64.IsCanonical := by
  obtain ⟨m, -, r, given, rfl⟩ := h
  unfold ofNote at given
  dsimp only at given
  split at given
  · cases given
    exact .null
  · split at given
    -- braces that hold no JSON
    · split at given
      · cases given
      · cases given
      · cases given
        exact .null
    · next payload read =>
      have canonical := (fits_of_read read).floatsIn
      split at given
      · cases given
      · next kept =>
        cases given
        unfold Decoder.free at kept
        dsimp only at kept
        split at kept
        · cases kept
          exact canonical
        · cases kept

end Response

/-! ### Bodies and Parameters -/

namespace RequestBody

theorem floatless_exampleForName (name : Text) : (BodyField.exampleForName name).Floatless := by
  simp only [BodyField.exampleForName, apply_ite (FloatsIn fun _ => False), FloatsIn.str,
    FloatsIn.bool, ite_self]

theorem floatless_exampleValue (f : BodyField) : f.exampleValue.Floatless := by
  have name := floatless_exampleForName f.name
  have none : (Json.arr []).Floatless ∧ (Json.obj []).Floatless :=
    ⟨.arr (List.forall_mem_nil _), .obj (List.forall_mem_nil _)⟩
  unfold BodyField.exampleValue
  split
  · exact .str _
  · simp only [apply_ite (FloatsIn fun _ => False), FloatsIn.int, FloatsIn.bool, none, name,
      ite_self]

/-- An inferred body has no floating-point numbers. -/
theorem floatless_ofFields (fields : List BodyField) :
    (∀ p ∈ (ofFields fields).schema, p.2.Floatless) ∧ (ofFields fields).example?.Floatless := by
  have property : ∀ f : BodyField, ∀ p ∈ property f, p.2.Floatless := by
    intro f
    unfold property
    split <;> simp
  constructor
  · have properties := FloatsIn.of_mem_ofList (List.forall_mem_map.mpr
      fun (f : BodyField) (_ : f ∈ fields) => FloatsIn.obj (property f) : ∀ p ∈ fields.map fun f =>
        (f.name, Json.obj (RequestBody.property f)), p.2.Floatless)
    refine List.forall_mem_cons.mpr ⟨.str _, List.forall_mem_cons.mpr ⟨.obj properties, ?_⟩⟩
    split
    · exact List.forall_mem_nil _
    · exact List.forall_mem_singleton.mpr (.ofTexts _)
  · exact .obj (FloatsIn.of_mem_ofList
      (List.forall_mem_map.mpr fun f _ => floatless_exampleValue f))

theorem floatless_of_infer {ctx : RouteContext} {b : RequestBody} (inferred : infer ctx = some b) :
    (∀ p ∈ b.schema, p.2.Floatless) ∧ b.example?.Floatless := by
  unfold infer at inferred
  split at inferred
  · cases inferred
  · obtain rfl := Option.some.inj inferred
    exact floatless_ofFields _

end RequestBody

namespace Parameter

/-- An inferred parameter has no example. -/
theorem example?_of_mem_infer {ctx : RouteContext} : ∀ p ∈ infer ctx, p.example? = .null := by
  have noted : ∀ content location default, ∀ p ∈ annotated content location default,
      p.example? = .null :=
    fun _ _ _ => List.forall_mem_map.mpr fun _ _ => rfl
  refine List.forall_mem_append.mpr ⟨List.forall_mem_append.mpr ⟨?_, ?_⟩, ?_⟩
  · exact List.forall_mem_map.mpr fun _ _ => rfl
  · unfold ofQuery
    split
    · exact List.forall_mem_nil _
    · split
      · exact List.forall_mem_singleton.mpr rfl
      · exact noted _ _ _
  · unfold ofBody
    split
    · exact List.forall_mem_nil _
    · split
      · exact List.forall_mem_singleton.mpr rfl
      · exact noted _ _ _

end Parameter

/-! ### Endpoints -/

namespace ParsedRoute

variable {route : ParsedRoute} {login : Option Text}

/-- **The numbers of an inferred endpoint** are those of its answers. -/
theorem examplesIn_endpoint_iff : (route.endpoint login).ExamplesIn floats ↔
    ∀ r ∈ (route.endpoint login).responses, r.2.example?.FloatsIn floats := by
  refine ⟨fun h => h.responses, fun responses => ⟨?_, ?_, responses⟩⟩
  · intro p mem _
    rw [Parameter.example?_of_mem_infer p mem]
    exact .null
  · intro b inferred
    obtain ⟨schema, example?⟩ := RequestBody.floatless_of_infer inferred
    exact ⟨fun p mem => (schema p mem).floatsIn, example?.floatsIn⟩

/-- An answer of an inferred endpoint has no floating-point numbers, or the part of the file that
belongs to the method annotates it. -/
theorem floats_responses : ∀ r ∈ (route.endpoint login).responses, r.2.example?.Floatless ∨
    Response.IsAnnotated (Handler.source route.content route.method) r.2.example? := by
  intro r mem
  cases inferred : Response.infer (route.context login) with
  | error e =>
      have none : (route.endpoint login).responses = [] := by
        simp only [endpoint, inferred]
      rw [none] at mem
      cases mem
  | ok responses =>
      have answers : (route.endpoint login).responses = responses := by
        simp only [endpoint, inferred]
      rw [answers] at mem
      exact Response.floats_infer inferred r mem

end ParsedRoute

/-! ### Scans -/

namespace Scan

variable {tree : FileTree} {options : Options} {finishing : Nat → List Nat} {now : Text}
  {d : Documentation}

/-- The endpoints of a scan are inferred from the texts of the route files. -/
theorem exists_route_of_mem (all : ∀ n, (finishing n).Perm (List.range n))
    (ran : runFinishing finishing tree options now = .ok d) {e : Endpoint} (mem : e ∈ d.endpoints) :
    ∃ path ∈ files tree options.root options.ignore, ∃ content,
      tree.readText path = .ok content ∧ ∃ v ∈ Handler.verbs content, ∃ url file,
        e = ParsedRoute.endpoint ⟨v.name, url, file, content⟩ options.login := by
  have present : tree.pathExists options.root = true := by
    by_contra absent
    rw [Bool.not_eq_true] at absent
    simp [runFinishing, absent] at ran
  rw [runFinishing_eq present all] at ran
  cases ran
  obtain ⟨path, listed, mem⟩ := List.mem_flatMap.mp mem
  unfold endpointsOf at mem
  split at mem
  · cases mem
  · next content read =>
    rw [ParsedRoute.ofFile, List.map_map] at mem
    obtain ⟨v, exported, rfl⟩ := List.mem_map.mp mem
    exact ⟨path, listed, content, read, v, exported, _, _, rfl⟩

/-- **When the OpenAPI document of a scan is JSON**: if the examples of the answers that it shows
have finite numbers.  An example whose numbers are not finite is annotated, in the part of a route
file that belongs to the method. -/
theorem isText_openApi_iff (all : ∀ n, (finishing n).Perm (List.range n))
    (ran : runFinishing finishing tree options now = .ok d) :
    (IsText (OpenApi.renderJson d) ↔
      ∀ e ∈ d.endpoints, OpenApi.IsShown d.endpoints e →
        ∀ r ∈ e.responses, r.2.example?.FloatsIn Binary64.IsFinite) ∧
    ∀ e ∈ d.endpoints, ∀ r ∈ e.responses, ¬ r.2.example?.FloatsIn Binary64.IsFinite →
      ∃ path ∈ files tree options.root options.ignore, ∃ content,
        tree.readText path = .ok content ∧
        Response.IsAnnotated (Handler.source content e.method) r.2.example? := by
  have inferred : ∀ e ∈ d.endpoints, ∃ route : ParsedRoute, e = route.endpoint options.login := by
    intro e mem
    obtain ⟨_, _, _, _, _, _, _, _, eq⟩ := exists_route_of_mem all ran mem
    exact ⟨_, eq⟩
  constructor
  · rw [OpenApi.isText_renderJson_iff]
    · refine forall₂_congr fun e mem => imp_congr_right fun _ => ?_
      obtain ⟨route, rfl⟩ := inferred e mem
      exact ParsedRoute.examplesIn_endpoint_iff
    · intro e mem _
      obtain ⟨route, rfl⟩ := inferred e mem
      refine ParsedRoute.examplesIn_endpoint_iff.mpr fun r hr => ?_
      rcases ParsedRoute.floats_responses r hr with none | annotated
      · exact none.floatsIn
      · exact annotated.canonical
  · intro e mem r hr infinite
    obtain ⟨path, listed, content, read, v, -, url, file, rfl⟩ := exists_route_of_mem all ran mem
    refine ⟨path, listed, content, read, ?_⟩
    exact (ParsedRoute.floats_responses r hr).resolve_left fun none => infinite none.floatsIn

/-- A directory with one route file, in which a comment annotates an answer with an example. -/
def annotatedTree (example? : Text) : FileTree :=
  ⟨.ofText "/t", [], [(["api"], .directory), (["api", "route.ts"],
    .file ((("/** @response 200 Rates " : Text) ++ example? ++
      (" */\nexport async function GET() \x7b\x7d\n" : Text)).flatMap Utf8.encodeOne))]⟩

/-- A scan of the directory. -/
def annotatedOptions : Options := { Options.default with root := .ofText "api" }

theorem isText_openApi_rates :
    let tree := annotatedTree "\x7b\"rate\": 1.5\x7d"
    ∃ d, (∀ n, (List.range n).Perm (List.range n)) ∧
      runFinishing List.range tree annotatedOptions "now" = .ok d ∧
      IsText (OpenApi.renderJson d) := by
  intro tree
  have all : ∀ n, (List.range n).Perm (List.range n) := fun n => .refl _
  have present : tree.pathExists annotatedOptions.root = true := by decide +kernel
  have finite : ∀ e ∈ (files tree annotatedOptions.root annotatedOptions.ignore).flatMap
      (endpointsOf tree annotatedOptions.root annotatedOptions.login),
      ∀ r ∈ e.responses, r.2.example?.FloatsIn Binary64.IsFinite := by
    decide +kernel
  have ran := runFinishing_eq present all "now"
  exact ⟨_, all, ran, (isText_openApi_iff all ran).1.mpr fun e mem _ => finite e mem⟩

/-- **A document that is no JSON**: the example is read with a number that is not finite. -/
theorem not_isText_openApi :
    let tree := annotatedTree "\x7b\"rate\": NaN\x7d"
    ∃ d, run tree annotatedOptions "now" = .ok d ∧ ¬ IsText (OpenApi.renderJson d) := by
  intro tree
  have present : tree.pathExists annotatedOptions.root = true := by decide +kernel
  have ran := runFinishing_eq present (fun n => .refl (List.range n)) "now"
  refine ⟨_, ran, fun text => (IsItem.isSober text).sober 'N' ?_ (Or.inl rfl)⟩
  decide +kernel

end Scan

end RouteDocs
