import RouteDocs.Proofs.Editor.File

/-!
# Sequences of Requests

The file of the editor is intact after any sequence of requests, if the bodies leave room for the
brackets around them.

## Main Definitions

* `Editor.run`: the files after a sequence of requests
* `Editor.updateWith`: a request with a body that is nested as deep as one likes

## Main Statements

* `Editor.run_keeps_intact`: **any sequence of requests leaves an intact file**, which is served
* `Editor.not_run_keeps_intact_deep`: bodies must leave room for the two brackets around an endpoint

## Design Notes

What is known about the nested example holds at every depth, so that no proof has to compute with
a text of many thousand code points.
-/

namespace RouteDocs

open Json

namespace Editor

/-! ### A Nested Example -/

/-- A list around a list, and so on, around a number. -/
def nested : Nat → Json
  | 0 => .int 1
  | n + 1 => .arr [nested n]

theorem depth_nested (n : Nat) : (nested n).depth = n := by
  induction n with
  | zero => rfl
  | succ n ih => rw [nested, depth, depthOfItems, depthOfItems, ih, Nat.max_zero]

theorem fits_nested {ints : Int → Prop} {texts : Text → Prop} {floats : Binary64 → Prop}
    (one : ints 1) (n : Nat) : Fits ints texts floats n (nested n) := by
  induction n with
  | zero => exact .int one
  | succ n ih => exact .arr (by simpa using ih)

theorem depthIssues_nested (n more : Nat) :
    Decoder.depthIssues (n + more + 1) (nested n) = [] := by
  induction n generalizing more with
  | zero =>
      rw [Nat.zero_add]
      rfl
  | succ n ih =>
      rw [Nat.add_right_comm n 1 more, nested, Decoder.depthIssues, Decoder.depthIssuesOfItems,
        Decoder.depthIssuesOfItems, ih]
      rfl

/-- An endpoint with a request body of which an example is known. -/
def endpointWith (v : Json) : Endpoint where
  method := "GET"
  url := "/api/users"
  file := "users/route.ts"
  title := none
  description := none
  summary := none
  parameters := []
  responses := []
  requestHeaders := none
  requestBody := some ⟨"object", [], none, v, []⟩
  tags := []
  requiresAuth := false
  authentication := none

/-- A documentation of one endpoint with a nested example. -/
def usersWith (n : Nat) : Documentation :=
  ⟨⟨"Users", "1.0.0", some "", none, none⟩, [endpointWith (nested (n + 1))], 1, "2024-05-01"⟩

/-- The request to replace the first endpoint by one with a nested example. -/
def updateWith (n : Nat) : Request :=
  ⟨"PUT", "/api/endpoint/0", Json.print .indented ((endpointWith (nested (n + 1))).toJson false)⟩

/-- A tree with the file of a documentation. -/
def usersTree : FileTree :=
  ⟨.ofText "/docs", [], [(["doc.json"],
    .file ((Json.print .indented ((usersWith 0).toJson false)).flatMap Utf8.encodeOne))]⟩

theorem fits_endpointWith {ints : Int → Prop} (one : ints 1) (n : Nat) :
    ((endpointWith (nested (n + 1))).toJson false).Fits ints (·.isScalar = true) (fun _ => False)
      (n + 3) := by
  simpa [nested, endpointWith, Endpoint.toJson, Endpoint.members, RequestBody.toJson, Json.record,
    isNull, ofText?, ofTexts] using fits_nested one n

theorem depth_endpointWith (n : Nat) :
    ((endpointWith (nested (n + 1))).toJson false).depth = n + 3 := by
  simp [nested, endpointWith, Endpoint.toJson, Endpoint.members, RequestBody.toJson, Json.record,
    isNull, ofText?, ofTexts, depth, depthOfMembers, depthOfItems, depth_nested]

/-- An endpoint is decoded if its example is valid. -/
theorem decode_endpointWith_of_free {v : Json} (there : v.isNull = false)
    (free : Decoder.free .request v = .ok v) :
    Endpoint.decode .request ((endpointWith v).toJson false) = .ok (endpointWith v) := by
  cases v with
  | null => cases there
  | _ =>
      simp [endpointWith, Endpoint.toJson, Endpoint.members, Endpoint.decode, RequestBody.toJson,
        RequestBody.decode, record, isNull, ofText?, ofTexts, Decoder.object, Decoder.member,
        Assoc.get?, Decoded.also, Decoded.of, Decoded.below, Decoder.text, Decoder.truth,
        Decoder.list, Decoder.items, Decoder.map, Decoder.values, Decoder.nullable, Except.map, free]

theorem decode_endpointWith {n : Nat} (few : n < 253) :
    Endpoint.decode .request ((endpointWith (nested (n + 1))).toJson false) =
      .ok (endpointWith (nested (n + 1))) := by
  have issues : Decoder.depthIssues Decoder.maxFreeDepth (nested (n + 1)) = [] := by
    obtain ⟨more, enough⟩ := Nat.exists_eq_add_of_lt (Nat.succ_lt_succ few)
    have depth : Decoder.maxFreeDepth = n + 1 + more + 1 := enough
    rw [depth]
    exact depthIssues_nested (n + 1) more
  exact decode_endpointWith_of_free rfl (by simp [Decoder.free, issues])

theorem bodyValue?_updateWith {n : Nat} (few : n < 253) :
    (updateWith n).bodyValue? = .ok (some ((endpointWith (nested (n + 1))).toJson false)) := by
  have room : 0 + (n + 3) ≤ Dialect.fragment.maxDepth := by
    show 0 + (n + 3) ≤ 990
    omega
  have readable : Readable .fragment 0 (updateWith n).body
      (((endpointWith (nested (n + 1))).toJson false).mapFloats .float) :=
    (fits_endpointWith (by decide) n).readable separates_indented (fun _ => False.elim) room
  rw [mapFloats_float] at readable
  exact bodyValue?_of_readable readable rfl

theorem call_updateWith {n : Nat} (few : n < 253) :
    (updateWith n).call = .ok (.update 0 (endpointWith (nested (n + 1)))) := by
  have path : Resource.ofPath? (updateWith n).plainPath = some (.endpoint "0") := by
    show Resource.ofPath? (Request.plainPath ⟨"PUT", "/api/endpoint/0", []⟩) = _
    decide
  have index : Request.decodeIndex "0" = .ok 0 := rfl
  have method : ((updateWith n).method != (Resource.endpoint "0").method) = false := rfl
  unfold Request.call
  simp only [path, method, Bool.false_eq_true, if_false, bodyValue?_updateWith few, bind,
    Except.bind, index, Request.decodeBody, decode_endpointWith few]
  rfl

theorem fits_usersWith {ints : Int → Prop} (one : ints 1) (n : Nat) :
    ((usersWith n).toJson false).Fits ints (·.isScalar = true) (fun _ => False) (n + 5) := by
  simpa [usersWith, Documentation.toJson, Info.toJson, Json.record, isNull, ofText?, one] using
    fits_endpointWith one n

theorem depth_usersWith (n : Nat) : ((usersWith n).toJson false).depth = n + 5 := by
  have list : depthOfItems [(endpointWith (nested (n + 1))).toJson false] = n + 3 := by
    rw [depthOfItems, depthOfItems, depth_endpointWith, Nat.max_zero]
  simp [usersWith, Documentation.toJson, Info.toJson, Json.record, isNull, ofText?, depth,
    depthOfMembers, list]

theorem wellFormed_usersTree : usersTree.WellFormed where
  nodup := by simp [usersTree]
  place_ne_nil := by simp [usersTree]
  names := by
    have name : IsName "doc.json" := by decide
    simpa [usersTree] using name
  parent := by
    intro p listed
    rw [List.mem_singleton.mp listed]
    rfl

theorem holds_usersTree : Holds (.ofText "doc.json") usersTree (usersWith 0) := by
  have fits : ((usersWith 0).toJson false).Fits Dialect.document.Takes (·.isScalar = true)
      (fun _ => False) 200 :=
    (fits_usersWith (by decide) 0).mono (fun _ h => h) (fun _ h => h) (fun _ h => h) (by decide)
  obtain ⟨t, print, printed, read⟩ :=
    Documentation.exists_print (g := .float) fits fun _ => False.elim
  rw [Documentation.decoded_eq_self (Option.some_ne_none _)] at read
  obtain ⟨scalar, lines⟩ := scalar_and_lines_of_isPrinted printed
  have bytes : usersTree.readBytes (.ofText "doc.json") = .ok (t.flatMap Utf8.encodeOne) := by
    rw [← (Documentation.print_eq_ok_iff.mp print).2]
    exact FileTree.readBytes_eq_ok.mpr ⟨["doc.json"], rfl, rfl⟩
  have decoded : Utf8.decode (t.flatMap Utf8.encodeOne) = .ok t :=
    Utf8.decode_encode (Utf8.encode_eq_ok.mpr ⟨scalar, rfl⟩)
  refine ⟨⟨t, ?_, read⟩, rfl⟩
  simp only [FileTree.readText, bytes, bind, Except.bind, decoded,
    Text.universalNewlines_eq_self lines]

theorem modest_updateWith {n brackets : Nat} (few : n < 253) (shallow : n + 3 + brackets ≤ 200) :
    (updateWith n).Modest brackets := by
  constructor
  · intro index e v _ body
    rw [bodyValue?_updateWith few] at body
    cases body
    exact (fits_endpointWith (by decide) n).mono (fun _ h => h) (fun _ _ => trivial)
      (fun _ _ => trivial) (Nat.le_sub_of_add_le shallow)
  · intro d v whole
    rw [call_updateWith few] at whole
    cases whole
  · intro d whole
    rw [call_updateWith few] at whole
    cases whole

/-- The files after some requests, handled one after another. -/
def run (file : FilePath) (rs : List Request) (tree : FileTree) : FileTree :=
  rs.foldl (fun tree r => (handle file r tree).2) tree

/-- An endpoint that needs more room than two brackets leave breaks the file. -/
theorem not_holds_updateWith {n : Nat} (deep : 200 < n + 5) (few : n < 253) (d' : Documentation) :
    ¬Holds (.ofText "doc.json") (run (.ofText "doc.json") [updateWith n] usersTree) d' := by
  have replaced : replaceEndpoint? (usersWith 0) 0 (endpointWith (nested (n + 1))) =
      some (usersWith n) := rfl
  have files : run (.ofText "doc.json") [updateWith n] usersTree =
      (store (.ofText "doc.json") (usersWith n) usersTree).2 := by
    rw [run, List.foldl_cons, List.foldl_nil, files_handle, call_updateWith few]
    simp only [files_update holds_usersTree, replaced]
  rw [files]
  have one : Dialect.document.Takes 1 := by decide
  refine not_holds_store wellFormed_usersTree ⟨_, holds_usersTree⟩ (fits_usersWith one n) ?_ d'
  rw [depth_usersWith]
  exact deep

/-! ### Sequences of Requests -/

variable {file : FilePath} {tree : FileTree}

/-- A sequence of requests leaves an intact file in a well-formed tree. -/
theorem holds_run {rs : List Request} (wf : tree.WellFormed) (holds : ∃ d, Holds file tree d)
    (modest : ∀ r ∈ rs, r.Modest 2) :
    (run file rs tree).WellFormed ∧ ∃ d, Holds file (run file rs tree) d := by
  induction rs generalizing tree with
  | nil => exact ⟨wf, holds⟩
  | cons r more ih =>
      obtain ⟨wf', holds'⟩ := handle_keeps_intact wf holds (modest r (by simp))
      exact ih wf' holds' fun q hq => modest q (List.mem_cons_of_mem r hq)

/-- **Any sequence of requests leaves an intact file.** After it, the file holds a documentation
that states the number of its endpoints, and whoever asks for the documentation is served. -/
theorem run_keeps_intact {rs : List Request} (wf : tree.WellFormed)
    (holds : ∃ d, Holds file tree d) (modest : ∀ r ∈ rs, r.Modest 2) :
    ∃ d, Holds file (run file rs tree) d ∧ ∀ r : Request, r.call = .ok .data →
      handle file r (run file rs tree) =
        (.ok ⟨200, .value (finite (d.toJson false))⟩, run file rs tree) := by
  obtain ⟨-, d, held⟩ := holds_run wf holds modest
  refine ⟨d, held, fun r data => ?_⟩
  unfold handle
  rw [data]
  simp only [run_data held]

theorem run_keeps_intact_users :
    usersTree.WellFormed ∧ (∃ d, Holds (.ofText "doc.json") usersTree d) ∧
      (∀ r ∈ [updateWith 7], r.Modest 2) ∧
      ∃ d, Holds (.ofText "doc.json") (run (.ofText "doc.json") [updateWith 7] usersTree) d ∧
        (handle (.ofText "doc.json") ⟨"GET", "/api/data", []⟩
          (run (.ofText "doc.json") [updateWith 7] usersTree)).1 =
            .ok ⟨200, .value (finite (d.toJson false))⟩ := by
  have modest : ∀ r ∈ [updateWith 7], r.Modest 2 := by
    intro r listed
    rw [List.mem_singleton.mp listed]
    exact modest_updateWith (by decide) (by decide)
  have data : Request.call ⟨"GET", "/api/data", []⟩ = .ok .data := rfl
  obtain ⟨d, held, served⟩ := run_keeps_intact wellFormed_usersTree ⟨_, holds_usersTree⟩ modest
  exact ⟨wellFormed_usersTree, ⟨_, holds_usersTree⟩, modest, d, held, by rw [served _ data]⟩

/-- **It is not enough that the bodies are nested less deep than the reader allows**: an endpoint
stands inside two brackets of the file, and one bracket less leaves room for one only. -/
theorem not_run_keeps_intact_deep : ¬∀ (file : FilePath) (tree : FileTree) (rs : List Request),
    tree.WellFormed → (∃ d, Holds file tree d) → (∀ r ∈ rs, r.Modest 1) →
    ∃ d, Holds file (run file rs tree) d := by
  intro claim
  have modest : ∀ r ∈ [updateWith 196], r.Modest 1 := by
    intro r listed
    rw [List.mem_singleton.mp listed]
    exact modest_updateWith (by decide) (by decide)
  obtain ⟨d', held⟩ := claim _ _ _ wellFormed_usersTree ⟨_, holds_usersTree⟩ modest
  exact not_holds_updateWith (by decide) (by decide) d' held

end Editor

end RouteDocs
