import RouteDocs.Docs.Codec
import RouteDocs.Proofs.Json.Limits

/-!
# Limits of a Documentation

The form of what is decoded from a value within the limits of a reader is within these limits.

## Main Statements

* `Endpoint.bounded_of_decode`: the form of an endpoint that is decoded is as deep as the value was,
  or as its own lists are
* `Documentation.endpoints_bounded_of_decode`: the same of the endpoints of a whole documentation
* `Documentation.bounded`: the form of a documentation is two brackets deeper than its endpoints

## Design Notes

The room that a form needs at least is that of its own brackets, which stand in the form even where
the value left them out: four for an endpoint and six for a documentation.
-/

namespace RouteDocs

open Decoded Decoder Json

variable {origin : Origin} {ints : Int → Prop} {room : Nat} {v : Json}

/-! ### Parts of Endpoints -/

theorem Parameter.bounded_of_decode (h : Bounded ints (room + 1) v) :
    (Parameter.decode origin v).All fun p => Bounded ints (room + 1) (p.toJson false) := by
  refine object_all h fun ms fits => ?_
  refine also_all (also_any (also_any (also_any (also_any (also_any (all_of ?_))))))
    (member_all fits ?_ fun v hv => free_all hv)
  · intro name type required location description example? hexample
    exact Bounded.record (by simp) (by simp [hexample])
  · rintro _ ⟨⟩
    exact .null

theorem Response.bounded_of_decode (h : Bounded ints (room + 2) v) :
    (Response.decode origin v).All fun r => Bounded ints (room + 2) (r.toJson false) := by
  refine object_all h fun ms fits => ?_
  refine also_any (also_any (also_all (also_any (also_any (all_of ?_)))
    (member_all fits ?_ fun v hv => free_all hv)))
  · intro statusCode description example? hexample requiredFields optionalFields
    exact Bounded.record (by simp) (by simp [hexample])
  · rintro _ ⟨⟩
    exact .null

theorem RequestHeader.bounded (h : RequestHeader) : Bounded ints (room + 1) (h.toJson false) :=
  Bounded.record (by simp) (by simp)

theorem RequestBody.bounded_of_decode (h : Bounded ints (room + 2) v) :
    (RequestBody.decode origin v).All fun b => Bounded ints (room + 2) (b.toJson false) := by
  refine object_all h fun ms fits => ?_
  refine also_any (also_all (also_any (also_all (also_any (all_of ?_))
    (member_all fits ?_ fun v hv => map_all hv fun v hv => free_all hv)))
    (member_all fits ?_ fun v hv => free_all hv))
  · rintro type schema ⟨nodup, hschema⟩ description example? hexample required
    have hobj : Bounded ints (room + 1) (.obj schema) := .obj nodup (fun _ _ => trivial) hschema
    exact Bounded.record (by simp) (by simp [hobj, hexample, -Fits.obj_iff])
  · rintro _ ⟨⟩
    simp
  · rintro _ ⟨⟩
    exact .null

theorem Authentication.bounded_of_decode (h : Bounded ints (room + 2) v) :
    (Authentication.decode origin v).All fun a => Bounded ints (room + 2) (a.toJson false) := by
  refine object_all h fun ms fits => ?_
  refine also_any (also_all (also_any (also_any (also_any (also_any (also_any (also_any
    (all_of ?_))))))) (member_all fits ?_ fun v hv => nullable_all
      (map_all hv fun v hv => free_all hv)))
  · intro kind required description headerName headerFormat loginEndpoint example? hexample steps
    have hobj : Bounded ints (room + 1) (example?.elim .null .obj) := Bounded.elim fun ms found =>
      .obj (hexample ms found).1 (fun _ _ => trivial) (hexample ms found).2
    exact Bounded.record (by simp) (by simp [hobj])
  · rintro _ ⟨⟩ _ ⟨⟩

/-! ### Endpoints -/

/-- **The form of an endpoint that is decoded is as deep as the value was.** -/
theorem Endpoint.bounded_of_decode (h : Bounded ints (room + 4) v) :
    (Endpoint.decode origin v).All fun e => Bounded ints (room + 4) (e.toJson false) := by
  refine object_all h fun ms fits => ?_
  refine also_all (also_any (also_any (also_all (also_any (also_all (also_all (also_any (also_any
    (also_any (also_any (also_any (also_any (all_of ?_)))))))
    (member_all fits ?_ fun v hv => list_all hv fun v hv => Parameter.bounded_of_decode hv))
    (member_all fits ?_ fun v hv => map_all hv fun v hv => Response.bounded_of_decode hv)))
    (member_all fits ?_ fun v hv => nullable_all (RequestBody.bounded_of_decode hv)))))
    (member_all fits ?_ fun v hv => nullable_all (Authentication.bounded_of_decode hv))
  · rintro method url file title description summary parameters hparameters responses
      ⟨nodup, hresponses⟩ requestHeaders requestBody hbody tags requiresAuth authentication hauth
    have parametersForm : Bounded ints (room + 3) (.arr (parameters.map (Parameter.toJson false))) :=
      Bounded.arr_map hparameters
    have responsesForm : Bounded ints (room + 3)
        (.obj (responses.map fun p => (p.1, p.2.toJson false))) :=
      Bounded.obj_map nodup hresponses
    have headersForm : Bounded ints (room + 3) (requestHeaders.elim .null fun hs =>
        .arr (hs.map (RequestHeader.toJson false))) :=
      Bounded.elim fun _ _ => Bounded.arr_map fun h _ => h.bounded
    have bodyForm : Bounded ints (room + 3) (requestBody.elim .null (RequestBody.toJson false)) :=
      Bounded.elim hbody
    have authForm : Bounded ints (room + 3)
        (authentication.elim .null (Authentication.toJson false)) :=
      Bounded.elim hauth
    refine Bounded.record (by simp [members]) ?_
    simp [members, parametersForm, responsesForm, headersForm, bodyForm, authForm, -Fits.obj_iff,
      -Fits.arr_iff]
  · rintro _ ⟨⟩
    simp
  · rintro _ ⟨⟩
    simp
  · rintro _ ⟨⟩ _ ⟨⟩
  · rintro _ ⟨⟩ _ ⟨⟩

/-! ### The Whole -/

theorem InfoAuthentication.bounded (a : InfoAuthentication) :
    Bounded ints (room + 1) (a.toJson false) := by
  have kind : Bounded ints room (a.kind.elim .null fun k => .str k.name) :=
    Bounded.elim fun _ _ => .str trivial
  have required : Bounded ints room (a.required.elim .null .bool) := Bounded.elim fun b _ => .bool b
  exact Bounded.record (by simp) (by simp [kind, required])

theorem Info.bounded (i : Info) : Bounded ints (room + 2) (i.toJson false) := by
  have authentication : Bounded ints (room + 1)
      (i.authentication.elim .null (InfoAuthentication.toJson false)) :=
    Bounded.elim fun a _ => a.bounded
  exact Bounded.record (by simp) (by simp [authentication])

/-- **The form of a documentation is within the limits** if the forms of its endpoints are with two
brackets around them, and the stated number has few digits. -/
theorem Documentation.bounded {d : Documentation}
    (endpoints : ∀ e ∈ d.endpoints, Bounded ints (room + 1) (e.toJson false))
    (few : ints d.totalEndpoints) :
    Bounded ints (room + 3) (d.toJson false) := by
  have info : Bounded ints (room + 2) (d.info.toJson false) := d.info.bounded
  have list : Bounded ints (room + 2) (.arr (d.endpoints.map (Endpoint.toJson false))) :=
    Bounded.arr_map endpoints
  exact Bounded.record (by simp) (by simp [info, list, few, -Fits.arr_iff])

/-- **What is decoded from a value within the limits** has endpoints with forms within the limits,
and states a number that the reader takes. -/
theorem Documentation.endpoints_bounded_of_decode {dialect : Dialect}
    (ample : maxDigits ≤ dialect.rules.maxLength) (h : Bounded dialect.Takes (room + 6) v) :
    (Documentation.decode origin v).All fun d =>
      (∀ e ∈ d.endpoints, Bounded dialect.Takes (room + 4) (e.toJson false)) ∧
        dialect.Takes d.totalEndpoints := by
  refine object_all h fun ms fits => ?_
  refine also_any (also_all (also_all (also_any (all_of ?_))
    (member_all fits ?_ fun v hv => list_all hv fun v hv => Endpoint.bounded_of_decode hv))
    (member_all fits ?_ fun v hv => integer_all ample hv))
  · intro info endpoints hendpoints total few generatedAt
    exact ⟨hendpoints, few⟩
  · rintro _ ⟨⟩
  · rintro _ ⟨⟩

end RouteDocs
