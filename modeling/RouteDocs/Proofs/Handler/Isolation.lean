import RouteDocs.Infer.Endpoint
import RouteDocs.Proofs.Handler.Start
import RouteDocs.Proofs.Handler.Tiling

/-!
# Handlers Do Not See One Another

The section of one handler is replaced by another text, in a way that leaves the handlers of the
file where they are. What is inferred for any other handler stays the same.

## Main Definitions

* `Handler.replaceSection`: a file with another text for one of its sections
* `Handler.movedPlace`: where the places of the file are afterwards
* `RouteContext.Alike`: contexts in which the same text belongs to the same method

## Main Statements

* `Handler.sectionEnd_replaceSection`: other sections end where their ends have moved to
* `Handler.source_replaceSection`: the source of another handler is what it was
* `RouteContext.Alike.body_eq`: the body depends on the declared types of the file and on nothing
  else outside the source
* `ParsedRoute.endpoint_of_other_section`: **what is inferred for a handler does not depend on the
  code of another one**

## Design Notes

The places of a file move by a monotone function, so that the least of some places moves to the
least of the moved ones; the ends of sections and of the preamble are such least places.
-/

namespace RouteDocs

namespace Handler

/-! ### Files with Another Section -/

/-- The file in which another text stands in the place of the section that begins at a place. -/
def replaceSection (content : Text) (s : Nat) (t : Text) : Text :=
  content.take s ++ t ++ content.drop (sectionEnd content s)

/-- Where a place is after the section at `s` was replaced: up to there nothing moves, and what
comes after the section is shifted by the difference of the lengths. -/
def movedPlace (content : Text) (s : Nat) (t : Text) (p : Nat) : Nat :=
  if p ≤ s then p else s + t.length + (p - sectionEnd content s)

variable {content t : Text} {s : Nat}

theorem movedPlace_of_le {p : Nat} (le : p ≤ s) : movedPlace content s t p = p :=
  if_pos le

theorem movedPlace_of_lt {p : Nat} (lt : s < p) :
    movedPlace content s t p = s + t.length + (p - sectionEnd content s) :=
  if_neg (Nat.not_le_of_lt lt)

theorem monotone_movedPlace : Monotone (movedPlace content s t) := by
  intro p q le
  unfold movedPlace
  split_ifs <;> omega

/-- The least of some numbers moves to the least of the moved ones. -/
theorem min?_map_of_monotone {f : Nat → Nat} (mono : Monotone f) (places : List Nat) :
    (places.map f).min? = places.min?.map f := by
  cases least : places.min? with
  | none => simp [List.min?_eq_none_iff.mp least]
  | some m =>
      obtain ⟨mem, le⟩ := List.min?_eq_some_iff.mp least
      refine List.min?_eq_some_iff.mpr ⟨List.mem_map_of_mem mem, fun b hb => ?_⟩
      obtain ⟨p, hp, rfl⟩ := List.mem_map.mp hb
      exact mono (le p hp)

/-- A section begins within the file. -/
theorem le_length_of_mem_startPlaces (place : s ∈ startPlaces content) : s ≤ content.length := by
  obtain ⟨v, start⟩ := mem_startPlaces.mp place
  obtain ⟨o, found, rfl⟩ := mem_starts.mp start
  exact (startAt_le content o).trans (offset?_le found)

/-- A section does not end before it begins. -/
theorem le_sectionEnd (place : s ∈ startPlaces content) : s ≤ sectionEnd content s := by
  change s ≤ ((startPlaces content).filter fun x => s < x).min?.getD content.length
  cases least : ((startPlaces content).filter fun x => s < x).min? with
  | none => exact le_length_of_mem_startPlaces place
  | some m =>
      have later := List.of_mem_filter (List.min?_mem least)
      exact Nat.le_of_lt (of_decide_eq_true later)

/-! ### Places After the Replacement -/

section Replaced

variable (place : s ∈ startPlaces content)
  (kept : starts (replaceSection content s t) =
    (starts content).map fun p => (p.1, movedPlace content s t p.2))

include kept in
theorem startPlaces_replaceSection :
    startPlaces (replaceSection content s t) =
      (startPlaces content).map (movedPlace content s t) := by
  rw [startPlaces, kept, startPlaces, List.map_map, List.map_map]
  rfl

theorem length_replaceSection (lt : s < content.length) :
    (replaceSection content s t).length = movedPlace content s t content.length := by
  rw [movedPlace_of_lt lt]
  simp only [replaceSection, List.length_append, List.length_take, List.length_drop]
  omega

include place kept in
/-- The preamble ends where it ended: the replaced section comes after it. -/
theorem preambleEnd_replaceSection :
    preambleEnd (replaceSection content s t) = preambleEnd content ∧ preambleEnd content ≤ s := by
  change (startPlaces (replaceSection content s t)).min?.getD _ =
    (startPlaces content).min?.getD _ ∧ (startPlaces content).min?.getD _ ≤ s
  rw [startPlaces_replaceSection kept, min?_map_of_monotone monotone_movedPlace]
  cases least : (startPlaces content).min? with
  | none => simp [List.min?_eq_none_iff.mp least] at place
  | some m =>
      have le : m ≤ s := (List.min?_eq_some_iff.mp least).2 s place
      exact ⟨movedPlace_of_le le, le⟩

include place in
/-- Places keep their order towards the beginning of another section. -/
theorem movedPlace_lt_iff {own : Nat} (mem : own ∈ startPlaces content) (other : s ≠ own) {q : Nat}
    (hq : q ∈ startPlaces content) :
    movedPlace content s t own < movedPlace content s t q ↔ own < q := by
  have after : ∀ p ∈ startPlaces content, s < p → sectionEnd content s ≤ p :=
    fun p hp lt => sectionEnd_le (mem_cuts.mpr hp) lt
  have ownAfter := after own mem
  have qAfter := after q hq
  have ends := le_sectionEnd place
  unfold movedPlace
  split_ifs <;> omega

include place kept in
/-- **Other sections end where their ends have moved to.** -/
theorem sectionEnd_replaceSection {own : Nat} (mem : own ∈ startPlaces content) (other : s ≠ own) :
    sectionEnd (replaceSection content s t) (movedPlace content s t own) =
      movedPlace content s t (sectionEnd content own) := by
  have later : ((startPlaces content).map (movedPlace content s t)).filter
      (fun q => movedPlace content s t own < q) =
        ((startPlaces content).filter fun q => own < q).map (movedPlace content s t) := by
    rw [List.filter_map]
    refine congrArg _ (List.filter_congr fun q hq => ?_)
    exact decide_eq_decide.mpr (movedPlace_lt_iff place mem other hq)
  change ((startPlaces (replaceSection content s t)).filter
      fun q => movedPlace content s t own < q).min?.getD _ =
    movedPlace content s t (((startPlaces content).filter fun q => own < q).min?.getD _)
  rw [startPlaces_replaceSection kept, later, min?_map_of_monotone monotone_movedPlace]
  cases least : ((startPlaces content).filter fun q => own < q).min? with
  | some m => rfl
  | none =>
      -- The section at `s` is not a later one, so that the own section comes after it.
      have none_later := List.filter_eq_nil_iff.mp (List.min?_eq_none_iff.mp least) s place
      have lt : s < own := Nat.lt_of_le_of_ne (by simpa using none_later) other
      exact length_replaceSection (lt.trans_le (le_length_of_mem_startPlaces mem))

/-! ### Texts After the Replacement -/

include place in
/-- Up to the replaced section the text is what it was. -/
theorem take_replaceSection {n : Nat} (le : n ≤ s) :
    (replaceSection content s t).take n = content.take n := by
  have inside : n ≤ (content.take s).length := by
    rw [List.length_take]
    exact Nat.le_min.mpr ⟨le, le.trans (le_length_of_mem_startPlaces place)⟩
  rw [replaceSection, List.append_assoc, List.take_append_of_le_length inside, List.take_take,
    Nat.min_eq_left le]

include place in
/-- From the end of the replaced section on, the text is what it was. -/
theorem drop_replaceSection {n : Nat} (le : sectionEnd content s ≤ n) :
    (replaceSection content s t).drop (s + t.length + (n - sectionEnd content s)) =
      content.drop n := by
  have before : (content.take s ++ t).length = s + t.length := by
    rw [List.length_append, List.length_take,
      Nat.min_eq_left (le_length_of_mem_startPlaces place)]
  have all : sectionEnd content s + (n - sectionEnd content s) = n := Nat.add_sub_of_le le
  rw [replaceSection, ← before, List.drop_length_add_append, List.drop_drop, all]

include place in
/-- A part of the file that lies before or after the replaced section is found where it is. -/
theorem slice_replaceSection {a b : Nat}
    (outside : a ≤ s ∧ b ≤ s ∨ s < a ∧ s < b ∧ sectionEnd content s ≤ a) :
    slice (replaceSection content s t) (movedPlace content s t a) (movedPlace content s t b) =
      slice content a b := by
  unfold slice
  rcases outside with ⟨ha, hb⟩ | ⟨ha, hb, le⟩
  · rw [movedPlace_of_le ha, movedPlace_of_le hb, take_replaceSection place hb]
  · have width : s + t.length + (b - sectionEnd content s) -
        (s + t.length + (a - sectionEnd content s)) = b - a := by
      omega
    rw [movedPlace_of_lt ha, movedPlace_of_lt hb, List.drop_take, List.drop_take, width,
      drop_replaceSection place le]

include place kept in
/-- **The source of another handler is what it was.** -/
theorem source_replaceSection {v : Verb} {own : Nat} (exported : (v, own) ∈ starts content)
    (other : s ≠ own) :
    source (replaceSection content s t) v.name = source content v.name := by
  have mem : own ∈ startPlaces content := mem_startPlaces.mpr ⟨v, exported⟩
  have moved : (v, movedPlace content s t own) ∈ starts (replaceSection content s t) := by
    rw [kept]
    exact List.mem_map.mpr ⟨_, exported, rfl⟩
  obtain ⟨preamble, le⟩ := preambleEnd_replaceSection place kept
  rw [source_of_mem_starts moved, source_of_mem_starts exported,
    sectionEnd_replaceSection place kept mem other, preamble, take_replaceSection place le]
  refine congrArg _ (slice_replaceSection place ?_)
  rcases Nat.lt_or_gt_of_ne other with lt | lt
  · have ends := le_sectionEnd mem
    exact Or.inr ⟨lt, by omega, sectionEnd_le (mem_cuts.mpr mem) lt⟩
  · exact Or.inl ⟨Nat.le_of_lt lt, sectionEnd_le (mem_cuts.mpr place) lt⟩

end Replaced

end Handler

/-! ### What Is Inferred from a Source -/

/-- Contexts of one method of one route in which the same text belongs to the method. -/
structure RouteContext.Alike (ctx ctx' : RouteContext) : Prop where
  /-- The method is the same. -/
  method : ctx.method = ctx'.method
  /-- The URL template is the same. -/
  url : ctx.url = ctx'.url
  /-- Clients obtain credentials at the same place. -/
  login : ctx.loginEndpoint = ctx'.loginEndpoint
  /-- The same text belongs to the method. -/
  source : ctx.source = ctx'.source

namespace RouteContext.Alike

variable {ctx ctx' : RouteContext} (h : ctx.Alike ctx')

include h

theorem verb?_eq : ctx.verb? = ctx'.verb? := by
  rw [verb?, verb?, h.method]

theorem parameters_eq : Parameter.infer ctx = Parameter.infer ctx' := by
  unfold Parameter.infer Parameter.ofQuery Parameter.ofBody Parameter.carriesBody
  rw [h.url, h.source, h.verb?_eq]

theorem responses_eq : Response.infer ctx = Response.infer ctx' := by
  rw [Response.infer, Response.infer, Response.base, Response.base, h.source, h.verb?_eq]

theorem headers_eq : RequestHeader.infer ctx = RequestHeader.infer ctx' := by
  rw [RequestHeader.infer, RequestHeader.infer, h.source]

theorem authentication_eq : Authentication.infer ctx = Authentication.infer ctx' := by
  rw [Authentication.infer, Authentication.infer, h.source, h.login]

/-- **The body depends on the declared types of the file** and on nothing else outside the source
of the handler. -/
theorem body_eq (types : TypeBlock.all ctx.content = TypeBlock.all ctx'.content) :
    RequestBody.infer ctx = RequestBody.infer ctx' := by
  unfold RequestBody.infer RequestBody.fields? BodyField.ofDestructuring? BodyField.ofAccess?
    BodyField.ofDeclarations? BodyField.declaredFields
  rw [h.source, h.verb?_eq, types]

end RouteContext.Alike

/-! ### Endpoints -/

namespace ParsedRoute

open Handler

/-- **What is inferred for a handler does not depend on the code of another one.** If the section
at another place is replaced by any text that leaves the handlers of the file where they are, the
parameters, responses, headers, authentication and tags of the handler are what they were, and so
is its body if the file declares the same types. -/
theorem endpoint_of_other_section {content t : Text} {v : Verb} {own s : Nat}
    (exported : (v, own) ∈ starts content) (place : s ∈ startPlaces content) (other : s ≠ own)
    (kept : starts (replaceSection content s t) =
      (starts content).map fun p => (p.1, movedPlace content s t p.2))
    (url file : Text) (login : Option Text) :
    let before := (ParsedRoute.mk v.name url file content).endpoint login
    let after := (ParsedRoute.mk v.name url file (replaceSection content s t)).endpoint login
    after.parameters = before.parameters ∧ after.responses = before.responses ∧
      after.requestHeaders = before.requestHeaders ∧
      after.authentication = before.authentication ∧ after.requiresAuth = before.requiresAuth ∧
      after.tags = before.tags ∧
      (TypeBlock.all (replaceSection content s t) = TypeBlock.all content →
        after.requestBody = before.requestBody) := by
  have alike : ((ParsedRoute.mk v.name url file (replaceSection content s t)).context login).Alike
      ((ParsedRoute.mk v.name url file content).context login) :=
    ⟨rfl, rfl, rfl, source_replaceSection place kept exported other⟩
  refine ⟨alike.parameters_eq, ?_, alike.headers_eq, congrArg some alike.authentication_eq,
    congrArg Authentication.required alike.authentication_eq, rfl, alike.body_eq⟩
  simp only [endpoint, alike.responses_eq]

/-- A `POST` handler that comes to read headers and to demand authentication changes nothing for
the `GET` handler after it. -/
theorem endpoint_of_other_section_post :
    let before : Text := "a;\nexport const POST = p\nexport const GET = g"
    let own : Text := "export const POST = requireAuth(headers())\n"
    let after := replaceSection before 3 own
    (Verb.get, 25) ∈ starts before ∧ 3 ∈ startPlaces before ∧
      (starts after = (starts before).map fun p => (p.1, movedPlace before 3 own p.2)) ∧
      TypeBlock.all after = TypeBlock.all before ∧
      let route := ParsedRoute.mk "GET" "/api/a" "a/route.ts"
      ((route after).endpoint none).requestHeaders = ((route before).endpoint none).requestHeaders ∧
      ((route after).endpoint none).requiresAuth = ((route before).endpoint none).requiresAuth ∧
      ((route after).endpoint none).requestBody = ((route before).endpoint none).requestBody := by
  intro before own after
  have starts_before : starts before = [(.get, 25), (.post, 3)] := by decide +kernel
  have starts_after : starts after = [(.get, 46), (.post, 3)] := by decide +kernel
  have exported : (Verb.get, 25) ∈ starts before := by simp [starts_before]
  have place : 3 ∈ startPlaces before := by simp [startPlaces, starts_before]
  have kept : starts after = (starts before).map fun p => (p.1, movedPlace before 3 own p.2) := by
    rw [starts_before, starts_after]
    decide +kernel
  have types : TypeBlock.all after = TypeBlock.all before := by
    have none_before : TypeBlock.pattern.findAll before = [] := by
      rw [← List.isEmpty_iff]
      decide +kernel
    have none_after : TypeBlock.pattern.findAll after = [] := by
      rw [← List.isEmpty_iff]
      decide +kernel
    rw [TypeBlock.all, TypeBlock.all, none_before, none_after]
  obtain ⟨-, -, headers, -, auth, -, body⟩ :=
    endpoint_of_other_section exported place (by decide) kept "/api/a" "a/route.ts" none
  exact ⟨exported, place, kept, types, headers, auth, body types⟩

end ParsedRoute

end RouteDocs
