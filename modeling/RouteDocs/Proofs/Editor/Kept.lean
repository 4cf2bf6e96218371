import RouteDocs.Proofs.Editor.Saved

/-!
# What the File Keeps of an Endpoint

JSON has no infinities and no not-a-number, so the file has null in their places. All other numbers
are read back as themselves, and so is everything else of an endpoint.

## Main Definitions

* `Endpoint.kept`: an endpoint as the file keeps it

## Main Statements

* `Editor.finite_eq_mapFloats`: what a client gets of a value is what the file keeps of it
* `Endpoint.kept_kept`: the file keeps an endpoint that was read from it as it is
* `Endpoint.kept_eq_self`: **an endpoint whose numbers are finite is kept as it is**
* `Editor.exists_reads_of_stored`: **what was stored is read**, as the file keeps it
-/

namespace RouteDocs

open Json

variable {v : Json} {g : Binary64 → Json} {floats : Binary64 → Prop}

/-- A value stays what it is if its numbers do. -/
theorem Json.mapFloats_eq_self (numbers : v.FloatsIn floats)
    (stays : ∀ x, floats x → g x = .float x) : v.mapFloats g = v := by
  induction numbers with
  | null | bool | int | str => rfl
  | float h => exact stays _ h
  | arr _ ih => rw [mapFloats_arr, List.map_congr_left ih, List.map_id']
  | @obj ms _ ih =>
      have same : ms.map (fun p => (p.1, mapFloats g p.2)) = ms.map id :=
        List.map_congr_left fun p hp => Prod.ext rfl (ih p hp)
      rw [mapFloats_obj, same, List.map_id]

namespace Editor

mutual

/-- **What a client gets of a value is what is read from its text**: null in the places of infinities
and of not-a-number. -/
theorem finite_eq_mapFloats : ∀ v : Json, finite v = v.mapFloats Layout.indented.readAs
  | .null | .bool _ | .int _ | .str _ => rfl
  | .float x => by cases x <;> rfl
  | .arr vs => congrArg Json.arr (finiteItems_eq_mapFloats vs)
  | .obj ms => congrArg Json.obj (finiteMembers_eq_mapFloats ms)

theorem finiteItems_eq_mapFloats :
    ∀ vs : List Json, finiteItems vs = mapFloatsOfItems Layout.indented.readAs vs
  | [] => rfl
  | v :: more => by
    rw [finiteItems, mapFloatsOfItems, finite_eq_mapFloats v, finiteItems_eq_mapFloats more]

theorem finiteMembers_eq_mapFloats :
    ∀ ms : List (Text × Json), finiteMembers ms = mapFloatsOfMembers Layout.indented.readAs ms
  | [] => rfl
  | (k, v) :: more => by
    rw [finiteMembers, mapFloatsOfMembers, finite_eq_mapFloats v, finiteMembers_eq_mapFloats more]

end

mutual

theorem finite_finite : ∀ v : Json, finite (finite v) = finite v
  | .null | .bool _ | .int _ | .str _ => rfl
  | .float x => by cases x <;> rfl
  | .arr vs => congrArg Json.arr (finiteItems_finiteItems vs)
  | .obj ms => congrArg Json.obj (finiteMembers_finiteMembers ms)

theorem finiteItems_finiteItems : ∀ vs : List Json, finiteItems (finiteItems vs) = finiteItems vs
  | [] => rfl
  | v :: more => by
    rw [finiteItems, finiteItems, finite_finite v, finiteItems_finiteItems more]

theorem finiteMembers_finiteMembers :
    ∀ ms : List (Text × Json), finiteMembers (finiteMembers ms) = finiteMembers ms
  | [] => rfl
  | (k, v) :: more => by
    rw [finiteMembers, finiteMembers, finite_finite v, finiteMembers_finiteMembers more]

end

end Editor

/-! ### Endpoints -/

/-- The endpoint as the file keeps it: with null in the places of infinities and of not-a-number. -/
def Endpoint.kept (e : Endpoint) : Endpoint := e.mapFree Editor.finite

/-- One function after another is applied to examples and schemas. -/
theorem Endpoint.mapFree_mapFree (f h : Json → Json) (e : Endpoint) :
    (e.mapFree f).mapFree h = e.mapFree (h ∘ f) := by
  have bodies (b : RequestBody) : (b.mapFree f).mapFree h = b.mapFree (h ∘ f) := by
    simp [RequestBody.mapFree]
  have authentications (a : Authentication) : (a.mapFree f).mapFree h = a.mapFree (h ∘ f) := by
    simp [Authentication.mapFree, Function.comp_def]
  simp [mapFree, Parameter.mapFree, Response.mapFree, Function.comp_def, bodies, authentications]

/-- **The file keeps what was read from it.** -/
theorem Endpoint.kept_kept (e : Endpoint) : e.kept.kept = e.kept := by
  rw [kept, kept, mapFree_mapFree, show Editor.finite ∘ Editor.finite = Editor.finite from
    funext Editor.finite_finite]

/-- **An endpoint whose numbers are finite is kept as it is.** -/
theorem Endpoint.kept_eq_self {e : Endpoint}
    (numbers : (e.toJson false).FloatsIn Binary64.IsFinite) : e.kept = e := by
  have stays (x : Binary64) (h : x.IsFinite) : Layout.indented.readAs x = .float x :=
    h.readAs_eq_self .indented
  -- The form stays what it is, and an endpoint is decoded from its form.
  have decoded := e.decode_toJson (g := Layout.indented.readAs)
  rw [mapFloats_eq_self numbers stays, ← mapFloats_float (e.toJson false),
    e.decode_toJson] at decoded
  have same : mapFloats .float = id := funext mapFloats_float
  have finite : mapFloats Layout.indented.readAs = Editor.finite :=
    (funext Editor.finite_eq_mapFloats).symm
  rw [kept, ← finite, ← Except.ok.inj decoded, same, e.mapFree_id]

/-! ### The File -/

namespace Editor

variable {file : FilePath} {tree tree' : FileTree} {d : Documentation}

/-- A documentation is within the limits of a file. -/
def IsBounded (d : Documentation) : Prop :=
  (∀ e ∈ d.endpoints, Bounded Dialect.document.Takes 198 (e.toJson false)) ∧
    Dialect.document.Takes d.totalEndpoints

/-- What is read from the file is within the limits. -/
theorem Reads.isBounded (h : Reads file tree d) : IsBounded d := h.within

/-- **What was stored is read**, as the file keeps it. -/
theorem exists_reads_of_stored (bounded : IsBounded d)
    (stored : store file d tree = (.ok (), tree')) :
    ∃ d', Reads file tree' d' ∧ d'.endpoints = d.endpoints.map Endpoint.kept := by
  obtain ⟨none, text⟩ := store_eq_ok stored
  have fits : Bounded Dialect.document.Takes (197 + 3) (d.toJson false) :=
    Documentation.bounded bounded.1 bounded.2
  have short : Layout.indented.IsShort .document := by decide
  obtain ⟨t, print, -, read⟩ :=
    Documentation.exists_print (fits.of_firstSurrogates none) fun _ => legible_number short
  obtain rfl := (Documentation.print_eq_ok_iff.mp print).2
  refine ⟨_, ⟨_, text, read⟩, ?_⟩
  rw [Documentation.decoded, ← funext finite_eq_mapFloats]
  rfl

end Editor

end RouteDocs
