import RouteDocs.Proofs.Editor.Frame
import RouteDocs.Proofs.Json.Grammar

/-!
# What Is Saved Is What Is Read

A documentation that the editor was given as a whole is what it hands out next.

## Main Definitions

* `Json.hasFloat`: whether a floating-point number occurs in a value
* `Documentation.counted`: a documentation that states the number of its endpoints
* `Documentation.IsReadable`: documentations within the limits of the reader of their file
* `Documentation.described`: a documentation with a description of the whole

## Main Statements

* `Editor.store_eq_ok`: what was stored stands in the file
* `Editor.load_of_stored`: **what is loaded after a documentation was stored**
* `Editor.data_after_saved`: what a client is answered after a documentation was saved
* `Editor.saved_is_read`: **what was saved comes back** if the whole is described and within the
  limits of the reader
* `Editor.cleared_description_returns`: a description that was cleared comes back as the default one

## Design Notes

An absent part is left out of the file, so it comes back as what its decoder puts in its place. That
is absence again for every optional part but the description of the whole.
-/

namespace RouteDocs

open Json

namespace Json

/-! ### Values Without Floating-Point Numbers -/

mutual

/-- Whether a floating-point number occurs in a value. -/
def hasFloat : Json → Bool
  | .float _ => true
  | .arr vs => hasFloatInItems vs
  | .obj ms => hasFloatInMembers ms
  | _ => false

/-- Whether a floating-point number occurs in some items. -/
def hasFloatInItems : List Json → Bool
  | [] => false
  | v :: more => hasFloat v || hasFloatInItems more

/-- Whether a floating-point number occurs in some members. -/
def hasFloatInMembers : List (Text × Json) → Bool
  | [] => false
  | (_, v) :: more => hasFloat v || hasFloatInMembers more

end

theorem hasFloatInItems_eq_false {vs : List Json} :
    hasFloatInItems vs = false ↔ ∀ v ∈ vs, v.hasFloat = false := by
  induction vs with
  | nil => simp [hasFloatInItems]
  | cons v more ih => simp [hasFloatInItems, ih]

theorem hasFloatInMembers_eq_false {ms : List (Text × Json)} :
    hasFloatInMembers ms = false ↔ ∀ p ∈ ms, p.2.hasFloat = false := by
  induction ms with
  | nil => simp [hasFloatInMembers]
  | cons p more ih => simp [hasFloatInMembers, ih]

variable {ints : Int → Prop} {texts : Text → Prop} {floats : Binary64 → Prop} {room : Nat} {v : Json}

/-- Nothing has to be asked of floating-point numbers where there are none. -/
theorem Fits.of_hasFloat (h : Fits ints texts floats room v) (none : v.hasFloat = false) :
    Fits ints texts (fun _ => False) room v := by
  induction h with
  | null => exact .null
  | bool b => exact .bool b
  | int few => exact .int few
  | float => cases none
  | str h => exact .str h
  | arr _ ih => exact .arr fun v hv => ih v hv (hasFloatInItems_eq_false.mp none v hv)
  | obj nodup keys _ ih =>
      exact .obj nodup keys fun p hp => ih p hp (hasFloatInMembers_eq_false.mp none p hp)

end Json

/-! ### Counted and Described Documentations -/

/-- The documentation that states the number of its endpoints. -/
def Documentation.counted (d : Documentation) : Documentation :=
  { d with totalEndpoints := d.endpoints.length }

/-- The form of the documentation is within the limits of the reader of its file. -/
def Documentation.IsReadable (d : Documentation) : Prop :=
  Within Dialect.document.Takes (fun _ => True) Dialect.document.maxDepth (d.toJson false)

/-- The documentation with the default description of the whole if it has none. -/
def Documentation.described (d : Documentation) : Documentation :=
  { d with info := d.info.described }

theorem Documentation.decoded_float (d : Documentation) :
    d.decoded (mapFloats .float) = d.described := by
  have kept : mapFloats .float = id := funext mapFloats_float
  have endpoints : Endpoint.mapFree id = id := funext Endpoint.mapFree_id
  rw [kept, decoded, endpoints, List.map_id]
  rfl

/-- What is said about the whole has no floating-point numbers. -/
theorem Info.hasFloat_toJson (i : Info) : (i.toJson false).hasFloat = false := by
  have kind (a : InfoAuthentication) : (a.toJson false).hasFloat = false := by
    refine hasFloatInMembers_eq_false.mpr fun p hp => ?_
    have listed := (List.mem_filter.mp hp).1
    rcases a with ⟨_ | _, _ | _, _ | _, _ | _, _ | _⟩ <;> revert listed p <;>
      simp [ofText?, hasFloat]
  refine hasFloatInMembers_eq_false.mpr fun p hp => ?_
  have listed := (List.mem_filter.mp hp).1
  rcases i with ⟨_, _, _ | _, _ | _, _ | a⟩ <;> revert listed p <;>
    simp [ofText?, hasFloat, kind]

/-- Floating-point numbers occur in endpoints only. -/
theorem Documentation.hasFloat_toJson (d : Documentation) : (d.toJson false).hasFloat =
    hasFloatInItems (d.endpoints.map (Endpoint.toJson false)) := by
  have form : d.toJson false = .obj [("info", d.info.toJson false),
      ("endpoints", .arr (d.endpoints.map (Endpoint.toJson false))),
      ("totalEndpoints", .int d.totalEndpoints), ("generatedAt", .str d.generatedAt)] := rfl
  rw [form]
  simp [hasFloat, hasFloatInMembers, Info.hasFloat_toJson]

/-- The description of the whole stands in the form if it is there. -/
theorem Documentation.toJson_described_iff (d : Documentation) :
    d.described.toJson false = d.toJson false ↔ d.info.description ≠ none := by
  constructor
  · intro same absent
    have info : d.info.described.toJson false = d.info.toJson false := by
      have members := Json.obj.inj same
      exact (Prod.mk.inj (List.cons.inj members).1).2
    have members := Json.obj.inj info
    simp [Info.described, absent, ofText?, isNull] at members
  · intro there
    rw [described, Info.described_eq_self there]

namespace Editor

variable {file : FilePath} {tree tree' : FileTree} {d : Documentation} {r : Request}

mutual

/-- A value without floating-point numbers is finite. -/
theorem finite_eq_self : ∀ {v : Json}, v.hasFloat = false → finite v = v
  | .null, _ | .bool _, _ | .int _, _ | .str _, _ => rfl
  | .float _, absent => nomatch absent
  | .arr _, absent => congrArg Json.arr (finiteItems_eq_self absent)
  | .obj _, absent => congrArg Json.obj (finiteMembers_eq_self absent)

theorem finiteItems_eq_self : ∀ {vs : List Json}, hasFloatInItems vs = false → finiteItems vs = vs
  | [], _ => rfl
  | v :: more, absent => by
      obtain ⟨first, others⟩ := Bool.or_eq_false_iff.mp absent
      rw [finiteItems, finite_eq_self first, finiteItems_eq_self others]

theorem finiteMembers_eq_self :
    ∀ {ms : List (Text × Json)}, hasFloatInMembers ms = false → finiteMembers ms = ms
  | [], _ => rfl
  | (k, v) :: more, absent => by
      obtain ⟨first, others⟩ := Bool.or_eq_false_iff.mp absent
      rw [finiteMembers, finite_eq_self first, finiteMembers_eq_self others]

end

/-! ### What Was Stored -/

/-- **What was stored stands in the file** as it was printed. -/
theorem store_eq_ok (stored : store file d tree = (.ok (), tree')) :
    firstSurrogates (d.toJson false) = none ∧
      tree'.readText file = .ok (Json.print .indented (d.toJson false)) := by
  unfold store at stored
  cases print : d.print with
  | error e =>
      rw [print] at stored
      cases congrArg Prod.fst stored
  | ok t =>
      obtain ⟨none, rfl⟩ := Documentation.print_eq_ok_iff.mp print
      have lines := (scalar_and_lines_of_isPrinted
        (printAt_all_isPrinted separates_indented 0 (d.toJson false) (.inr none))).2
      rw [print] at stored
      dsimp only at stored
      cases written : FileTree.writeText file (Json.print .indented (d.toJson false)) tree with
      | mk answer tree'' =>
          rw [written] at stored
          cases answer with
          | error e => cases congrArg Prod.fst stored
          | ok _ =>
              obtain rfl : tree'' = tree' := congrArg Prod.snd stored
              exact ⟨none, FileTree.readText_of_writeText written lines⟩

/-- A documentation without floating-point numbers is loaded after it was stored, described, if it
is within the limits of the reader, and otherwise the file is not read. -/
theorem load_of_stored {ints : Int → Prop} {room : Nat}
    (stored : store file d tree = (.ok (), tree'))
    (fits : Within ints (fun _ => False) room (d.toJson false)) :
    (d.IsReadable → load file tree' = (.ok d.described, tree')) ∧
      (¬d.IsReadable → load file tree' = (.error (.refused .unreadableFile), tree')) := by
  obtain ⟨none, text⟩ := store_eq_ok stored
  have scalar := fits.of_firstSurrogates none
  constructor
  · intro within
    have both : (d.toJson false).Fits Dialect.document.Takes (·.isScalar = true) (fun _ => False)
        Dialect.document.maxDepth :=
      (within.and scalar).mono (fun _ h => h.1) (fun _ h => h.2) (fun _ h => h.2) le_rfl
    obtain ⟨t, print, -, read⟩ :=
      Documentation.exists_print (g := .float) both fun _ => False.elim
    rw [Documentation.decoded_float] at read
    obtain rfl := (Documentation.print_eq_ok_iff.mp print).2
    exact Reads.load_eq ⟨_, text, read⟩
  · intro beyond
    have unread : ∃ issues, Documentation.read (Json.print .indented (d.toJson false)) =
        .error issues := by
      unfold Documentation.read Documentation.readWith
      split
      · exact ⟨_, rfl⟩
      · next w read =>
        exact absurd ((fits_of_read_print separates_indented scalar read).mono (fun _ h => h)
          (fun _ _ => trivial) (fun _ _ => trivial) le_rfl) beyond
    obtain ⟨issues, unread⟩ := unread
    unfold load
    rw [FileTree.bind_apply, FileTree.get_apply]
    simp only [text, unread]
    rfl

/-- The documentation that a client gets is loaded from the file. -/
theorem handle_data (asked : r.call = .ok .data) :
    (handle file r tree).1 = match (load file tree).1 with
      | .ok d => .ok ⟨200, .value (finite (d.toJson false))⟩
      | .error (.refused refusal) => .ok refusal.response
      | .error (.failed fault) => .error fault := by
  unfold handle
  rw [asked]
  dsimp only
  rw [Call.run, FileTree.bind_apply]
  rcases load file tree with ⟨result, tree'⟩
  cases result with
  | ok d => rfl
  | error stop => cases stop <;> rfl

/-! ### What Was Saved -/

/-- To save a documentation is to store it with the number of its endpoints. -/
theorem run_saveAll (file : FilePath) (d : Documentation) (tree : FileTree) :
    Call.run file (.saveAll d) tree = match store file d.counted tree with
      | (.ok _, tree') => (.ok success, tree')
      | (.error stop, tree') => (.error stop, tree') := by
  rw [Call.run, FileTree.bind_apply, Documentation.counted]
  rcases store file _ tree with ⟨result, tree'⟩
  cases result <;> rfl

/-- **A documentation that was saved was stored**. -/
theorem stored_of_saved {reply : Reply} (called : r.call = .ok (.saveAll d))
    (granted : handle file r tree = (.ok ⟨200, reply⟩, tree')) :
    store file d.counted tree = (.ok (), tree') := by
  unfold handle at granted
  simp only [called, run_saveAll] at granted
  rcases stored : store file d.counted tree with ⟨result, tree''⟩
  rw [stored] at granted
  cases result with
  | ok _ =>
      obtain rfl : tree'' = tree' := congrArg Prod.snd granted
      rfl
  | error stop =>
      cases stop with
      | refused refusal =>
          exact absurd ⟨reply, congrArg Prod.fst granted⟩ (not_succeeds_refusal refusal)
      | failed fault => cases congrArg Prod.fst granted

/-- The form of a documentation that was asked to be saved is nested to some depth. -/
theorem exists_bounded_of_saveAll (called : r.call = .ok (.saveAll d)) :
    ∃ room, Bounded (fun _ => True) room (d.counted.toJson false) := by
  obtain ⟨v, body, decoded⟩ := call_standsIn called
  have bounded : Bounded Dialect.fragment.Takes (984 + 6) v :=
    fits_of_bodyValue? body
  have endpoints := (Documentation.endpoints_bounded_of_decode le_rfl bounded d decoded).1
  have widened : ∀ e ∈ d.endpoints, Bounded (fun _ => True) (984 + 4) (e.toJson false) :=
    fun e he => (endpoints e he).mono (fun _ _ => trivial) (fun _ h => h) (fun _ h => h) le_rfl
  exact ⟨_, Documentation.bounded (d := d.counted) widened trivial⟩

/-- **What a client is answered after a documentation was saved**, which has no floating-point
numbers. -/
theorem data_after_saved {asking : Request} {reply : Reply} (called : r.call = .ok (.saveAll d))
    (granted : handle file r tree = (.ok ⟨200, reply⟩, tree'))
    (no_floats : (d.toJson false).hasFloat = false) (asked : asking.call = .ok .data) :
    (d.counted.IsReadable → (handle file asking tree').1 =
        .ok ⟨200, .value (d.counted.described.toJson false)⟩) ∧
      (¬d.counted.IsReadable →
        (handle file asking tree').1 = .ok Refusal.unreadableFile.response) := by
  obtain ⟨room, bounded⟩ := exists_bounded_of_saveAll called
  have none_counted : (d.counted.toJson false).hasFloat = false := by
    rwa [Documentation.hasFloat_toJson] at no_floats ⊢
  have none_described : (d.counted.described.toJson false).hasFloat = false := by
    rwa [Documentation.hasFloat_toJson] at no_floats ⊢
  obtain ⟨loaded, refused⟩ :=
    load_of_stored (stored_of_saved called granted) (bounded.of_hasFloat none_counted)
  rw [handle_data asked]
  constructor
  · intro within
    simp only [loaded within, finite_eq_self none_described]
  · intro beyond
    simp only [refused beyond]

/-! ### A Documentation without Endpoints -/

/-- A documentation without endpoints. -/
def bare (description : Option Text) : Documentation :=
  ⟨⟨"Users", "1.0.0", description, none, none⟩, [], 0, "2024-05-01"⟩

/-- The request to save a documentation, with nulls for what is absent. -/
def saving (d : Documentation) : Request :=
  ⟨"PUT", "/api/save-all", Json.print .indented (d.toJson true)⟩

theorem decode_bare (description : Option Text) :
    Documentation.decode .request ((bare description).toJson true) = .ok (bare description) := by
  cases description <;>
    simp [bare, Documentation.toJson, Documentation.decode, Info.toJson, Info.decode, record,
      isNull, ofText?, Decoder.object, Decoder.member, Assoc.get?, Decoded.also, Decoded.of,
      Decoded.below, Decoder.text, Decoder.list, Decoder.items, Decoder.nullable, Decoder.integer,
      Except.map]

/-- The body of a request is read as the value that was printed, if its numbers are finite. -/
theorem bodyValue?_print {v : Json} {room : Nat} (method path : Text)
    (fits : v.Fits Dialect.fragment.Takes (·.isScalar = true) (fun x => x.IsCanonical ∧ x.IsFinite)
      room)
    (enough : room ≤ Dialect.fragment.maxDepth) (there : v.isNull = false) :
    Request.bodyValue? ⟨method, path, Json.print .indented v⟩ = .ok (some v) := by
  have short : Layout.indented.IsShort .fragment := by decide
  have legible (x : Binary64) (h : x.IsCanonical ∧ x.IsFinite) :
      Legible .fragment (Layout.indented.number x) (.float x) := by
    rw [← h.2.readAs_eq_self .indented]
    exact legible_number short h.1
  have readable : Readable .fragment 0 (Json.print .indented v) (v.mapFloats .float) :=
    fits.readable separates_indented legible (by omega)
  rw [mapFloats_float] at readable
  exact bodyValue?_of_readable readable there

theorem call_saving (description : Option Text)
    (scalar : ∀ t, description = some t → t.isScalar = true) :
    (saving (bare description)).call = .ok (.saveAll (bare description)) := by
  have zero : Binary64.decimalLength 0 ≤ maxDigits := by decide
  have fits : ((bare description).toJson true).Fits Dialect.fragment.Takes (·.isScalar = true)
      (fun _ => False) 3 := by
    cases description with
    | none => simp [bare, Documentation.toJson, Info.toJson, record, ofText?, zero]
    | some t => simp [bare, Documentation.toJson, Info.toJson, record, ofText?, zero, scalar t rfl]
  have path : Resource.ofPath? (saving (bare description)).plainPath = some .all := by
    show Resource.ofPath? (Request.plainPath ⟨"PUT", "/api/save-all", []⟩) = _
    decide
  have method : ((saving (bare description)).method != Resource.all.method) = false := rfl
  have body : (saving (bare description)).bodyValue? =
      .ok (some ((bare description).toJson true)) :=
    bodyValue?_print _ _ (fits.mono (fun _ h => h) (fun _ h => h) (fun _ h => h.elim) le_rfl)
      (by decide) rfl
  unfold Request.call
  simp only [path, method, Bool.false_eq_true, if_false, body, bind, Except.bind,
    Request.decodeBody, decode_bare]
  rfl

/-- A documentation that can be printed is saved over a file. -/
theorem exists_saved (wf : tree.WellFormed) (reads : ∃ d', Reads file tree d')
    (called : r.call = .ok (.saveAll d)) (none : firstSurrogates (d.counted.toJson false) = none) :
    ∃ tree', handle file r tree = (.ok ⟨200, success⟩, tree') := by
  obtain ⟨tree', stored, -⟩ := exists_store wf reads none
  exact ⟨tree', handle_of_granted called (by rw [run_saveAll, stored])⟩

/-- **What was saved comes back.** After a documentation without floating-point numbers was saved, a
client who asks for the documentation gets it with the number of its endpoints, if the whole has a
description and the form is within the limits of the reader of the file, and only then. Of a form
within the limits, all comes back but an absent description, in whose place the default one stands; a
form beyond them is not read. -/
theorem saved_is_read {asking : Request} {reply : Reply} (called : r.call = .ok (.saveAll d))
    (granted : handle file r tree = (.ok ⟨200, reply⟩, tree'))
    (no_floats : (d.toJson false).hasFloat = false) (asked : asking.call = .ok .data) :
    ((handle file asking tree').1 = .ok ⟨200, .value (d.counted.toJson false)⟩ ↔
      d.info.description ≠ none ∧ d.counted.IsReadable) ∧
    (d.counted.IsReadable → (handle file asking tree').1 =
      .ok ⟨200, .value (d.counted.described.toJson false)⟩) ∧
    (¬d.counted.IsReadable →
      (handle file asking tree').1 = .ok Refusal.unreadableFile.response) := by
  have answer := data_after_saved called granted no_floats asked
  refine ⟨?_, answer⟩
  by_cases within : d.counted.IsReadable
  · rw [answer.1 within, and_iff_left within]
    refine Iff.trans ⟨fun same => ?_, fun same => ?_⟩ d.counted.toJson_described_iff
    · exact Reply.value.inj (Response.mk.inj (Except.ok.inj same)).2
    · rw [same]
  · rw [answer.2 within]
    refine iff_of_false (fun same => ?_) fun ⟨_, readable⟩ => within readable
    exact not_succeeds_refusal .unreadableFile ⟨_, same⟩

theorem isReadable_bare (description : Option Text) : (bare description).counted.IsReadable := by
  have zero : Dialect.document.Takes 0 := by decide
  have fits : Within Dialect.document.Takes (fun _ => True) (197 + 3)
      ((bare description).counted.toJson false) := by
    cases description <;>
      simp [bare, Documentation.counted, Documentation.toJson, Info.toJson, record, isNull, ofText?,
        zero, -Dialect.document_takes]
  exact fits

theorem saved_is_read_bare :
    (saving (bare (some "All users"))).call = .ok (.saveAll (bare (some "All users"))) ∧
    ∃ tree' : FileTree, handle (.ofText "doc.json") (saving (bare (some "All users"))) usersTree =
      (.ok ⟨200, success⟩, tree') ∧
    (handle (.ofText "doc.json") ⟨"GET", "/api/data", []⟩ tree').1 =
      .ok ⟨200, .value ((bare (some "All users")).toJson false)⟩ := by
  have called := call_saving (some "All users") (by rintro _ ⟨⟩; decide)
  obtain ⟨tree', granted⟩ :=
    exists_saved wellFormed_usersTree ⟨_, holds_usersTree.1⟩ called (by decide)
  have data : Request.call ⟨"GET", "/api/data", []⟩ = .ok .data := rfl
  have read := (saved_is_read called granted rfl data).1
  exact ⟨called, tree', granted, read.mpr ⟨Option.some_ne_none _, isReadable_bare _⟩⟩

/-- **A description that was cleared comes back**: a client who saved a documentation without one is
handed out another documentation. -/
theorem cleared_description_returns : ¬∀ (file : FilePath) (tree tree' : FileTree)
    (d : Documentation) (r asking : Request) (reply : Reply), r.call = .ok (.saveAll d) →
    handle file r tree = (.ok ⟨200, reply⟩, tree') → (d.toJson false).hasFloat = false →
    asking.call = .ok .data →
    (handle file asking tree').1 = .ok ⟨200, .value (d.counted.toJson false)⟩ := by
  intro claim
  have called := call_saving none nofun
  obtain ⟨tree', granted⟩ :=
    exists_saved wellFormed_usersTree ⟨_, holds_usersTree.1⟩ called (by decide)
  have data : Request.call ⟨"GET", "/api/data", []⟩ = .ok .data := rfl
  have answer := (data_after_saved called granted rfl data).1 (isReadable_bare none)
  rw [claim _ _ _ _ _ _ _ called granted rfl data] at answer
  have same := Reply.value.inj (Response.mk.inj (Except.ok.inj answer)).2
  exact (bare none).counted.toJson_described_iff.mp same.symm rfl

end Editor

end RouteDocs
