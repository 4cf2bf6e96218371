import RouteDocs.Proofs.Docs.Codec
import RouteDocs.Render.Document

/-!
# Documents That Are Read Back

The text of a documentation within the limits of the reader is read back as the documentation.

## Main Statements

* `Documentation.print_eq_ok_iff`: which documentations have a text, and which one
* `Documentation.exists_print`: a documentation within the limits has a text, which is read as what
  is decoded from its form
* `Documentation.print_loses_nothing`: **the JSON document loses nothing**

## Design Notes

Whether a documentation is within the limits is asked of its form, which holds all its texts,
numbers and free-form values at the depths at which the reader meets them.
-/

namespace RouteDocs

open Json

namespace Documentation

variable {d : Documentation}

/-- **A documentation has one text**, its form with indentation, if what it says is scalar. -/
theorem print_eq_ok_iff {t : Text} :
    d.print = .ok t ↔
      firstSurrogates (d.toJson false) = none ∧ Json.print .indented (d.toJson false) = t := by
  unfold print
  dsimp only
  cases firstSurrogates (d.toJson false) <;> simp

/-- **A documentation within the limits of the reader has a text**, which is read as what is
decoded from its form. Its floating-point numbers may be read as other values. -/
theorem exists_print {floats : Binary64 → Prop} {g : Binary64 → Json}
    (fits : (d.toJson false).Fits Dialect.document.Takes (·.isScalar = true) floats
      Dialect.document.maxDepth)
    (legible : ∀ x, floats x → Legible Dialect.document (Layout.indented.number x) (g x)) :
    ∃ t, d.print = .ok t ∧ t.all isPrinted = true ∧
      Documentation.read t = .ok (d.decoded (mapFloats g)) := by
  have readable : Readable Dialect.document 0 (Json.print .indented (d.toJson false))
      ((d.toJson false).mapFloats g) :=
    fits.readable separates_indented legible (by omega)
  refine ⟨_, print_eq_ok_iff.mpr ⟨fits.firstSurrogates_eq_none, rfl⟩, readable.printed, ?_⟩
  rw [Documentation.read, readWith, readable.read_eq_ok]
  exact d.decode_toJson

/-- The text of a described documentation without floating-point numbers is read as the
documentation. -/
theorem read_print (described : d.info.description ≠ none)
    (fits : (d.toJson false).Fits Dialect.document.Takes (·.isScalar = true)
      (fun _ => False) Dialect.document.maxDepth) :
    Documentation.read (Json.print .indented (d.toJson false)) = .ok d := by
  obtain ⟨t, print, -, read⟩ := exists_print (g := .float) fits fun _ => False.elim
  rw [Documentation.decoded_eq_self described] at read
  rwa [(print_eq_ok_iff.mp print).2]

/-- **The JSON document loses nothing.** A documentation that is described, has scalar texts and no
floating-point numbers in its free-form values, and is within the limits of the reader, has a
text, and the text is read as the documentation itself. -/
theorem print_loses_nothing (described : d.info.description ≠ none)
    (fits : (d.toJson false).Fits Dialect.document.Takes (·.isScalar = true)
      (fun _ => False) Dialect.document.maxDepth) :
    ∃ t, d.print = .ok t ∧ Documentation.read t = .ok d :=
  ⟨_, print_eq_ok_iff.mpr ⟨fits.firstSurrogates_eq_none, rfl⟩, read_print described fits⟩

/-- A documentation with nulls inside an example, of which one endpoint is known. -/
def usersExample : Documentation where
  info := ⟨"Users", "1.0.0", some "", none, none⟩
  endpoints := [{
    method := "GET", url := "/api/users", file := "users/route.ts",
    title := none, description := some "All \"users\"", summary := none,
    parameters := [],
    responses := [("404", ⟨"404", "None", .null, [], []⟩),
      ("200", ⟨"200", "Some", .obj [("next", .null), ("ids", .arr [.int 7, .null])], ["ids"], []⟩)],
    requestHeaders := none, requestBody := none, tags := ["users"],
    requiresAuth := false, authentication := none }]
  totalEndpoints := 1
  generatedAt := "2024-05-01T12:00:00"

theorem print_loses_nothing_users : usersExample.info.description ≠ none ∧
    (usersExample.toJson false).Fits Dialect.document.Takes (·.isScalar = true)
      (fun _ => False) Dialect.document.maxDepth ∧
    ∃ t, usersExample.print = .ok t ∧ Documentation.read t = .ok usersExample := by
  have described : usersExample.info.description ≠ none := Option.some_ne_none _
  have fits : (usersExample.toJson false).Fits Dialect.document.Takes (·.isScalar = true)
      (fun _ => False) (193 + 7) := by
    simp [usersExample, toJson, Endpoint.toJson, Endpoint.members, Response.toJson, Info.toJson,
      record, isNull, ofText?, ofTexts]
    decide
  exact ⟨described, fits, print_loses_nothing described fits⟩

end Documentation

end RouteDocs
