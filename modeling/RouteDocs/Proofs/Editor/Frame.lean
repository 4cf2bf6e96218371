import RouteDocs.Proofs.Editor.Request
import RouteDocs.Proofs.Editor.Run
import RouteDocs.Proofs.Json.Printed

/-!
# What an Edit Leaves Alone

A request either succeeds or leaves the files as they are, and a request to replace one endpoint
leaves everything else of the documentation as it is.

## Main Definitions

* `Editor.Succeeds`: the answer to a request that was granted

## Main Statements

* `Editor.allOrNothing_store`: a documentation is written, or nothing changes
* `Editor.handle_unchanged`: **a request that does not succeed changes nothing**
* `Documentation.fits_set`: another endpoint within the limits leaves the form within the limits
* `Editor.handle_update`: a request to replace an endpoint, with the file after it
* `Editor.edit_changes_target_only`: **edits are all or nothing and change their target only**
* `Editor.not_edit_changes_target_only_deep`: the endpoint must leave room for the two brackets
  around it

## Design Notes

The file is opened for writing when its new text is there. The text is scalar whatever the
documentation is, so that the writing does not fail half-way.
-/

namespace RouteDocs

open Json

/-! ### Requests That Do Not Succeed -/

/-- What can be printed is printed as a scalar text. -/
theorem Documentation.isScalar_of_print {d : Documentation} {t : Text} (h : d.print = .ok t) :
    t.isScalar = true := by
  obtain ⟨scalar, rfl⟩ := Documentation.print_eq_ok_iff.mp h
  exact (scalar_and_lines_of_isPrinted
    (printAt_all_isPrinted separates_indented 0 _ (.inr scalar))).1

namespace Editor

variable {file : FilePath} {tree : FileTree} {d : Documentation} {r : Request} {c : Call}
  {index : Int} {e : Endpoint}

/-- The answer to a request that was granted. -/
def Succeeds (answer : Except Fault Response) : Prop :=
  ∃ reply, answer = .ok ⟨200, reply⟩

section

variable {α β : Type} {x : Action α} {f : α → Action β}

/-- The actions that change no files. -/
def KeepsFiles (x : Action α) : Prop :=
  ∀ tree, (x tree).2 = tree

/-- The actions that succeed or change no files. -/
def AllOrNothing (x : Action α) : Prop :=
  ∀ tree, (∃ a, (x tree).1 = .ok a) ∨ (x tree).2 = tree

theorem KeepsFiles.allOrNothing (h : KeepsFiles x) : AllOrNothing x :=
  fun tree => .inr (h tree)

/-- What changes no files may stand before an action that is all or nothing. -/
theorem KeepsFiles.bind (hx : KeepsFiles x) (hf : ∀ a, AllOrNothing (f a)) :
    AllOrNothing (x >>= f) := by
  intro tree
  have same := hx tree
  rw [FileTree.bind_apply]
  cases result : x tree with
  | mk answer tree' =>
      rw [result] at same
      dsimp only at same
      subst same
      cases answer with
      | error stop => exact .inr rfl
      | ok a => exact hf a tree'

/-- An action that is all or nothing may be followed by a reply. -/
theorem AllOrNothing.reply (hx : AllOrNothing x) (b : β) :
    AllOrNothing (x >>= fun _ => pure b) := by
  intro tree
  have granted := hx tree
  rw [FileTree.bind_apply]
  cases result : x tree with
  | mk answer tree' =>
      rw [result] at granted
      cases answer with
      | ok a => exact .inl ⟨b, rfl⟩
      | error stop => exact granted.imp_left fun ⟨_, absurd⟩ => nomatch absurd

end

theorem keepsFiles_load (file : FilePath) : KeepsFiles (load file) := by
  intro tree
  unfold load
  rw [FileTree.bind_apply, FileTree.get_apply]
  dsimp only
  cases tree.readText file with
  | error e => cases e <;> rfl
  | ok t =>
      dsimp only
      cases Documentation.read t <;> rfl

/-- **A documentation is written, or nothing changes.** -/
theorem allOrNothing_store (file : FilePath) (d : Documentation) :
    AllOrNothing (store file d) := by
  intro tree
  unfold store
  cases print : d.print with
  | error e => exact .inr rfl
  | ok t =>
      have written := FileTree.writeText_ok_or_unchanged file
        (Documentation.isScalar_of_print print) tree
      dsimp only
      cases result : FileTree.writeText file t tree with
      | mk answer tree' =>
          rw [result] at written
          cases answer with
          | ok _ => exact .inl ⟨(), rfl⟩
          | error e => exact .inr (written.resolve_left nofun)

/-- To look at something changes no files. -/
theorem keepsFiles_run (looks : c = .page ∨ c = .data) : KeepsFiles (c.run file) := by
  intro tree
  rcases looks with rfl | rfl
  · rfl
  · have same := keepsFiles_load file tree
    rw [Call.run, FileTree.bind_apply]
    cases result : load file tree with
    | mk answer tree' =>
        rw [result] at same
        cases answer <;> exact same

/-- **What is asked for is done, or nothing changes.** -/
theorem allOrNothing_run (file : FilePath) (c : Call) : AllOrNothing (c.run file) := by
  cases c with
  | page => exact (keepsFiles_run (.inl rfl)).allOrNothing
  | data => exact (keepsFiles_run (.inr rfl)).allOrNothing
  | saveAll d => exact (allOrNothing_store file _).reply success
  | update index e =>
      refine (keepsFiles_load file).bind fun d => ?_
      cases replaceEndpoint? d index e with
      | none => exact fun tree => .inr rfl
      | some d' => exact (allOrNothing_store file d').reply success

/-- **A request that does not succeed changes nothing**, and neither does a request to look at
something. -/
theorem handle_unchanged (h : ¬Succeeds (handle file r tree).1 ∨ r.method = "GET") :
    (handle file r tree).2 = tree := by
  rw [files_handle]
  cases called : r.call with
  | error refusal => rfl
  | ok c =>
      rcases h with refused | get
      · refine (allOrNothing_run file c tree).resolve_left fun ⟨reply, granted⟩ => refused ?_
        unfold handle
        rw [called]
        rcases result : c.run file tree with ⟨answer, tree'⟩
        rw [result] at granted
        dsimp only at granted
        subst granted
        exact ⟨reply, by simp only [result]⟩
      · exact keepsFiles_run (Request.call_get get called) tree

/-! ### Replaced Endpoints -/

end Editor

/-- The form of a documentation is within the limits if its parts are, where an endpoint stands
inside two brackets. -/
theorem Documentation.fits_iff {d : Documentation} {ints : Int → Prop} {floats : Binary64 → Prop}
    {room : Nat} :
    (d.toJson false).Fits ints (·.isScalar = true) floats (room + 2) ↔
      (d.info.toJson false).Fits ints (·.isScalar = true) floats (room + 1) ∧
      (∀ e ∈ d.endpoints, (e.toJson false).Fits ints (·.isScalar = true) floats room) ∧
      ints d.totalEndpoints ∧ d.generatedAt.isScalar = true := by
  have form : d.toJson false = .obj [("info", d.info.toJson false),
      ("endpoints", .arr (d.endpoints.map (Endpoint.toJson false))),
      ("totalEndpoints", .int d.totalEndpoints), ("generatedAt", .str d.generatedAt)] := rfl
  rw [form, Fits.obj_iff]
  simp [-Fits.obj_iff]

/-- **Another endpoint within the limits leaves the form within the limits**, if it has room for
two brackets around it. -/
theorem Documentation.fits_set {d : Documentation} {e : Endpoint} {ints : Int → Prop}
    {floats : Binary64 → Prop} {room : Nat}
    (fits : (d.toJson false).Fits ints (·.isScalar = true) floats (room + 2))
    (fits' : (e.toJson false).Fits ints (·.isScalar = true) floats room) (i : Nat) :
    (Documentation.toJson false { d with endpoints := d.endpoints.set i e }).Fits ints
      (·.isScalar = true) floats (room + 2) := by
  obtain ⟨info, endpoints, few, scalar⟩ := fits_iff.mp fits
  refine fits_iff.mpr ⟨info, fun e' mem => ?_, few, scalar⟩
  rcases List.mem_or_eq_of_mem_set mem with old | rfl
  · exact endpoints e' old
  · exact fits'

namespace Editor

variable {file : FilePath} {tree : FileTree} {d : Documentation} {r : Request} {c : Call}
  {index : Int} {e : Endpoint}

/-- A documentation with scalar texts is stored over a file. -/
theorem exists_store (wf : tree.WellFormed) (reads : ∃ d', Reads file tree d')
    (none : firstSurrogates (d.toJson false) = none) :
    ∃ tree', store file d tree = (.ok (), tree') ∧ tree'.WellFormed ∧
      tree'.readText file = .ok (Json.print .indented (d.toJson false)) := by
  obtain ⟨_, old, text, -⟩ := reads
  obtain ⟨scalar, lines⟩ := scalar_and_lines_of_isPrinted
    (printAt_all_isPrinted separates_indented 0 (d.toJson false) (.inr none))
  obtain ⟨tree', written, wf', text'⟩ := wf.exists_write_read text scalar lines
  refine ⟨tree', ?_, wf', text'⟩
  unfold store
  rw [Documentation.print_eq_ok_iff.mpr ⟨none, rfl⟩]
  dsimp only
  rw [show FileTree.writeText file (Json.print .indented (d.toJson false)) tree = _ from written]

/-- **What is stored is read back**, if it is within the limits of the reader. -/
theorem exists_store_reads (d : Documentation) (wf : tree.WellFormed)
    (reads : ∃ d', Reads file tree d') (described : d.info.description ≠ none)
    (fits : (d.toJson false).Fits Dialect.document.Takes (·.isScalar = true)
      (fun _ => False) Dialect.document.maxDepth) :
    ∃ tree', store file d tree = (.ok (), tree') ∧ Reads file tree' d := by
  obtain ⟨tree', stored, -, text'⟩ := exists_store wf reads fits.firstSurrogates_eq_none
  exact ⟨tree', stored, _, text', Documentation.read_print described fits⟩

theorem handle_of_granted {reply : Reply} {tree' : FileTree} (called : r.call = .ok c)
    (run : c.run file tree = (.ok reply, tree')) :
    handle file r tree = (.ok ⟨200, reply⟩, tree') := by
  unfold handle
  simp only [called, run]

theorem handle_of_refused {refusal : Refusal} {tree' : FileTree} (called : r.call = .ok c)
    (run : c.run file tree = (.error (.refused refusal), tree')) :
    handle file r tree = (.ok refusal.response, tree') := by
  unfold handle
  simp only [called, run]

/-- An endpoint that is there is replaced, if the documentation with it can be stored. -/
theorem run_update_of_some {d' : Documentation} {tree' : FileTree} (reads : Reads file tree d)
    (replaced : replaceEndpoint? d index e = some d')
    (stored : store file d' tree = (.ok (), tree')) :
    Call.run file (.update index e) tree = (.ok success, tree') := by
  rw [Call.run, FileTree.bind_apply, reads.load_eq]
  simp only [replaced]
  rw [FileTree.bind_apply, stored]
  rfl

/-- An endpoint that is not there is refused. -/
theorem run_update_of_none (reads : Reads file tree d)
    (absent : replaceEndpoint? d index e = none) :
    Call.run file (.update index e) tree = (.error (.refused .noSuchEndpoint), tree) := by
  rw [Call.run, FileTree.bind_apply, reads.load_eq]
  simp only [absent]
  rfl

/-- **An endpoint that is there is replaced**, and nothing else is. -/
theorem handle_update (wf : tree.WellFormed) (reads : Reads file tree d)
    (described : d.info.description ≠ none)
    (fits : (d.toJson false).Fits Dialect.document.Takes (·.isScalar = true)
      (fun _ => False) Dialect.document.maxDepth)
    (fits' : (e.toJson false).Fits Dialect.document.Takes (·.isScalar = true)
      (fun _ => False) (Dialect.document.maxDepth - 2))
    (called : r.call = .ok (.update index e)) (inside : 0 ≤ index ∧ index < d.endpoints.length) :
    (handle file r tree).1 = .ok ⟨200, success⟩ ∧ Reads file (handle file r tree).2
      { d with endpoints := d.endpoints.set index.toNat e } := by
  have replaced : replaceEndpoint? d index e =
      some { d with endpoints := d.endpoints.set index.toNat e } := if_pos inside
  obtain ⟨tree', stored, reads'⟩ := exists_store_reads
    { d with endpoints := d.endpoints.set index.toNat e } wf ⟨d, reads⟩ described
    (Documentation.fits_set fits fits' index.toNat)
  rw [handle_of_granted called (run_update_of_some reads replaced stored)]
  exact ⟨rfl, reads'⟩

theorem not_succeeds_refusal (refusal : Refusal) : ¬Succeeds (.ok refusal.response) := by
  rintro ⟨reply, same⟩
  cases refusal <;> cases same

/-- A request with an index of too many digits is refused. -/
theorem not_succeeds_of_long (long : 4300 < (Text.ofInt index).length) (body : Text) :
    ¬Succeeds (handle file (.putEndpoint index body) tree).1 := by
  obtain ⟨refusal, called⟩ := Request.call_putEndpoint_of_long long body
  unfold handle
  simp only [called]
  exact not_succeeds_refusal refusal

/-- **Edits are all or nothing and change their target only.** A request that does not succeed, and
a request to look at something, changes no byte, whatever the file holds. Of a file that is read, a
request to replace an endpoint succeeds if there is such an endpoint, and the file is then read as
before, with the endpoint in the place of the old one; a request of this kind is what puts a valid
body at the path of an endpoint, unless its number has more digits than are read. The endpoint
stands inside two brackets of the file. -/
theorem edit_changes_target_only (file : FilePath) :
    (∀ (r : Request) (tree : FileTree), ¬Succeeds (handle file r tree).1 ∨ r.method = "GET" →
      (handle file r tree).2 = tree) ∧
    (∀ (r : Request) (tree : FileTree) (d : Documentation) (index : Int) (e : Endpoint),
      tree.WellFormed → Reads file tree d → d.info.description ≠ none →
      (d.toJson false).Fits Dialect.document.Takes (·.isScalar = true) (fun _ => False)
        Dialect.document.maxDepth →
      (e.toJson false).Fits Dialect.document.Takes (·.isScalar = true)
        (fun _ => False) (Dialect.document.maxDepth - 2) →
      r.call = .ok (.update index e) →
      (Succeeds (handle file r tree).1 ↔ 0 ≤ index ∧ index < d.endpoints.length) ∧
      (Succeeds (handle file r tree).1 → Reads file (handle file r tree).2
        { d with endpoints := d.endpoints.set index.toNat e })) ∧
    (∀ (index : Int) (body : Text) (v : Json) (e : Endpoint),
      (Request.putEndpoint index body).bodyValue? = .ok (some v) →
      Endpoint.decode .request v = .ok e →
      if (Text.ofInt index).length ≤ 4300 then
        (Request.putEndpoint index body).call = .ok (.update index e)
      else ∀ tree, ¬Succeeds (handle file (.putEndpoint index body) tree).1) := by
  refine ⟨fun r tree => handle_unchanged, ?_, ?_⟩
  · intro r tree d index e wf reads described fits fits' called
    by_cases inside : 0 ≤ index ∧ index < d.endpoints.length
    · obtain ⟨granted, reads'⟩ := handle_update wf reads described fits fits' called inside
      exact ⟨⟨fun _ => inside, fun _ => ⟨success, granted⟩⟩, fun _ => reads'⟩
    · have absent : replaceEndpoint? d index e = none := if_neg inside
      have refused : ¬Succeeds (handle file r tree).1 := by
        rw [handle_of_refused called (run_update_of_none reads absent)]
        exact not_succeeds_refusal .noSuchEndpoint
      exact ⟨⟨fun granted => absurd granted refused, fun there => absurd there inside⟩,
        fun granted => absurd granted refused⟩
  · intro index body v e value decoded
    split
    · next few => exact Request.call_putEndpoint few value decoded
    · next many => exact fun tree => not_succeeds_of_long (Nat.lt_of_not_le many) body

theorem run_singleton (file : FilePath) (r : Request) (tree : FileTree) :
    run file [r] tree = (handle file r tree).2 := rfl

/-- The example with another endpoint. -/
theorem set_usersWith (n : Nat) : { usersWith 0 with
    endpoints := (usersWith 0).endpoints.set (0 : Int).toNat (endpointWith (nested (n + 1))) } =
      usersWith n := rfl

theorem edit_changes_target_only_users :
    usersTree.WellFormed ∧ Reads (.ofText "doc.json") usersTree (usersWith 0) ∧
      Reads (.ofText "doc.json") (handle (.ofText "doc.json") (updateWith 7) usersTree).2
        (usersWith 7) ∧
      (handle (.ofText "doc.json") ⟨"GET", "/api/data", []⟩ usersTree).2 = usersTree := by
  obtain ⟨unchanged, updates, puts⟩ := edit_changes_target_only (.ofText "doc.json")
  have reads : Reads (.ofText "doc.json") usersTree (usersWith 0) := holds_usersTree.1
  have fits : ((usersWith 0).toJson false).Fits Dialect.document.Takes (·.isScalar = true)
      (fun _ => False) Dialect.document.maxDepth :=
    (fits_usersWith (by decide) 0).mono (fun _ h => h) (fun _ h => h) (fun _ h => h) (by decide)
  have fits' : ((endpointWith (nested (7 + 1))).toJson false).Fits Dialect.document.Takes
      (·.isScalar = true) (fun _ => False) (Dialect.document.maxDepth - 2) :=
    (fits_endpointWith (by decide) 7).mono (fun _ h => h) (fun _ h => h) (fun _ h => h) (by decide)
  have called := puts 0 (updateWith 7).body _ _ (bodyValue?_updateWith (by decide))
    (decode_endpointWith (by decide))
  have updated := updates (updateWith 7) usersTree (usersWith 0) 0 (endpointWith (nested (7 + 1)))
    wellFormed_usersTree reads (Option.some_ne_none _) fits fits' called
  rw [set_usersWith] at updated
  have inside : 0 ≤ (0 : Int) ∧ (0 : Int) < (usersWith 0).endpoints.length := ⟨le_rfl, one_pos⟩
  refine ⟨wellFormed_usersTree, reads, updated.2 (updated.1.mpr inside), ?_⟩
  exact unchanged ⟨"GET", "/api/data", []⟩ usersTree (.inr rfl)

/-- **It is not enough that an endpoint is within the limits of the reader**: an endpoint stands
inside two brackets of the file, and one that leaves room for one only is accepted, after which the
file is not read any more. -/
theorem not_edit_changes_target_only_deep : ¬∀ (file : FilePath) (r : Request) (tree : FileTree)
    (d : Documentation) (index : Int) (e : Endpoint),
    tree.WellFormed → Reads file tree d → d.info.description ≠ none →
    (d.toJson false).Fits Dialect.document.Takes (·.isScalar = true) (fun _ => False)
      Dialect.document.maxDepth →
    (e.toJson false).Fits Dialect.document.Takes (·.isScalar = true)
      (fun _ => False) (Dialect.document.maxDepth - 1) →
    r.call = .ok (.update index e) → 0 ≤ index ∧ index < d.endpoints.length →
    Reads file (handle file r tree).2 { d with endpoints := d.endpoints.set index.toNat e } := by
  intro claim
  have fits : ((usersWith 0).toJson false).Fits Dialect.document.Takes (·.isScalar = true)
      (fun _ => False) Dialect.document.maxDepth :=
    (fits_usersWith (by decide) 0).mono (fun _ h => h) (fun _ h => h) (fun _ h => h) (by decide)
  have fits' : ((endpointWith (nested (196 + 1))).toJson false).Fits Dialect.document.Takes
      (·.isScalar = true) (fun _ => False) (Dialect.document.maxDepth - 1) :=
    fits_endpointWith (by decide) 196
  have inside : 0 ≤ (0 : Int) ∧ (0 : Int) < (usersWith 0).endpoints.length := ⟨le_rfl, one_pos⟩
  have reads := claim (.ofText "doc.json") (updateWith 196) usersTree (usersWith 0) 0
    (endpointWith (nested (196 + 1))) wellFormed_usersTree holds_usersTree.1
    (Option.some_ne_none _) fits fits' (call_updateWith (by decide)) inside
  rw [set_usersWith, ← run_singleton] at reads
  have counted : (usersWith 196).totalEndpoints = (usersWith 196).endpoints.length := rfl
  exact not_holds_updateWith (by decide) (by decide) (usersWith 196) ⟨reads, counted⟩

end Editor

end RouteDocs
