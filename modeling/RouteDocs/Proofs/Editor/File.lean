import RouteDocs.Editor.Handle
import RouteDocs.Proofs.Docs.Limits
import RouteDocs.Proofs.Files.Write
import RouteDocs.Proofs.Render.Document

/-!
# The File of the Editor

Whatever a client asks for, the file of the editor stays a documentation that the editor can read.

## Main Definitions

* `Editor.Reads`, `Editor.Holds`: what a file, and what an intact file holds
* `Editor.Request.Modest`: requests whose bodies stay within the limits of the reader
* `Documentation.Storable`: documentations that can be read back if they can be written

## Main Statements

* `Editor.store_keeps_intact`: writing a documentation that can be read back leaves an intact file
* `Editor.call_standsIn`: what a request asks for was decoded from its body
* `Editor.handle_keeps_intact`: **one request leaves an intact file**
* `Editor.fits_of_holds_store`: an intact file with a documentation shows that it is within the limits
* `Editor.not_holds_store`: writing a documentation that is nested too deep does not leave an intact
  file

## Design Notes

A request is refused, fails without a response or writes the file; the file changes in the last
case only. What is written was decoded, from the file or from a body, and decoding bounds how deep
its form is. A body with surrogates gives a documentation that cannot be printed, so nothing is
written.
-/

namespace RouteDocs

open Json

/-- Documentations that can be read back if they can be written: their endpoints leave room for the
two brackets around them, and the stated number is the number of endpoints and has few digits. -/
structure Documentation.Storable (d : Documentation) : Prop where
  /-- Endpoints leave room for two brackets. -/
  endpoints : ∀ e ∈ d.endpoints, Bounded Dialect.document.Takes 198 (e.toJson false)
  /-- The stated number has few digits. -/
  few : Dialect.document.Takes d.totalEndpoints
  /-- The stated number is the number of endpoints. -/
  counted : d.totalEndpoints = d.endpoints.length

namespace Editor

variable {file : FilePath} {tree : FileTree} {d : Documentation} {r : Request} {v : Json}

/-- The file is read as a documentation. -/
def Reads (file : FilePath) (tree : FileTree) (d : Documentation) : Prop :=
  ∃ t, tree.readText file = .ok t ∧ Documentation.read t = .ok d

/-- The file holds a documentation that states the number of its endpoints. -/
def Holds (file : FilePath) (tree : FileTree) (d : Documentation) : Prop :=
  (∃ t, tree.readText file = .ok t ∧ Documentation.read t = .ok d) ∧
    d.totalEndpoints = d.endpoints.length

/-! ### The File -/

/-- What is read from the file is within the limits. -/
theorem Reads.within (h : Reads file tree d) :
    (∀ e ∈ d.endpoints, Bounded Dialect.document.Takes 198 (e.toJson false)) ∧
      Dialect.document.Takes d.totalEndpoints := by
  obtain ⟨t, -, decoded⟩ := h
  unfold Documentation.read Documentation.readWith at decoded
  split at decoded
  · cases decoded
  next v read =>
  have bounded : Bounded Dialect.document.Takes (194 + 6) v :=
    (fits_of_read read).mono (fun _ h => h) (fun _ _ => trivial) (fun _ h => h) le_rfl
  exact Documentation.endpoints_bounded_of_decode le_rfl bounded d decoded

/-- What is read from the file can be stored. -/
theorem Holds.storable (h : Holds file tree d) : d.Storable :=
  have ⟨endpoints, few⟩ := Reads.within h.1
  ⟨endpoints, few, h.2⟩

/-- A file that is read as a documentation is loaded. -/
theorem Reads.load_eq (h : Reads file tree d) : load file tree = (.ok d, tree) := by
  obtain ⟨t, text, read⟩ := h
  unfold load
  rw [FileTree.bind_apply, FileTree.get_apply]
  simp only [text, read]
  rfl

theorem Holds.load_eq (h : Holds file tree d) : load file tree = (.ok d, tree) :=
  Reads.load_eq h.1

/-- A documentation that can be stored is printed and read back, if it can be printed. -/
theorem exists_read_print {t : Text} (storable : d.Storable) (print : d.print = .ok t) :
    t.all isPrinted = true ∧ ∃ d', Documentation.read t = .ok d' ∧
      d'.totalEndpoints = d'.endpoints.length := by
  have bounded : Bounded Dialect.document.Takes (197 + 3) (d.toJson false) :=
    Documentation.bounded storable.endpoints storable.few
  have scalar := (Documentation.print_eq_ok_iff.mp print).1
  have short : Layout.indented.IsShort .document := by decide
  -- Each number is read back, but infinities and not-a-number as null.
  obtain ⟨t', print', printed, read⟩ :=
    Documentation.exists_print (bounded.of_firstSurrogates scalar) fun _ => legible_number short
  obtain rfl : t = t' := Except.ok.inj (print.symm.trans print')
  refine ⟨printed, _, read, ?_⟩
  simp only [Documentation.decoded, List.length_map]
  exact storable.counted

/-- **Writing a documentation that can be stored leaves an intact file.** -/
theorem store_keeps_intact (wf : tree.WellFormed) (holds : ∃ d, Holds file tree d)
    (storable : d.Storable) :
    (store file d tree).2.WellFormed ∧ ∃ d', Holds file (store file d tree).2 d' := by
  unfold store
  cases print : d.print with
  | error e => exact ⟨wf, holds⟩
  | ok t =>
      obtain ⟨printed, d', read, counted⟩ := exists_read_print storable print
      obtain ⟨scalar, lines⟩ := scalar_and_lines_of_isPrinted printed
      obtain ⟨_, ⟨old, text, -⟩, -⟩ := holds
      obtain ⟨tree', written, wf', text'⟩ := wf.exists_write_read text scalar lines
      simp only [written]
      exact ⟨wf', d', ⟨t, text', read⟩, counted⟩

/-! ### Requests -/

/-- **Requests whose bodies stay within the limits of the reader**, where the body of an endpoint
leaves room for a number of further brackets. -/
structure Request.Modest (brackets : Nat) (r : Request) : Prop where
  /-- The body of an endpoint leaves room for further brackets. -/
  endpoint : ∀ index e v, r.call = .ok (.update index e) → r.bodyValue? = .ok (some v) →
    Within Dialect.document.Takes (fun _ => True) (Dialect.document.maxDepth - brackets) v
  /-- The body of a documentation does not need more room than there is. -/
  whole : ∀ d v, r.call = .ok (.saveAll d) → r.bodyValue? = .ok (some v) →
    Within Dialect.document.Takes (fun _ => True) Dialect.document.maxDepth v
  /-- A documentation does not have more endpoints than can be written down. -/
  few : ∀ d, r.call = .ok (.saveAll d) → Dialect.document.Takes d.endpoints.length

/-- What is asked for was decoded from the body of a request, as far as it needs a body. -/
def Call.StandsIn (r : Request) : Call → Prop
  | .page | .data => True
  | .update _ e => ∃ v, r.bodyValue? = .ok (some v) ∧ Endpoint.decode .request v = .ok e
  | .saveAll d => ∃ v, r.bodyValue? = .ok (some v) ∧ Documentation.decode .request v = .ok d

theorem decodeBody_all {α : Type} {decode : Decoder α} {o : Option Json} :
    (Request.decodeBody decode o).All fun a => ∃ v, o = some v ∧ decode v = .ok a := by
  cases o with
  | none => exact Decoded.below_all Decoded.all_fail
  | some v => exact Decoded.below_all fun a decoded => ⟨v, rfl, decoded⟩

theorem valid_eq_ok {α : Type} {x : Decoded α} {a : α} (h : Request.valid x = .ok a) :
    x = .ok a := by
  cases x <;> cases h
  rfl

/-- **What a request asks for was decoded from its body.** -/
theorem call_standsIn {c : Call} (h : r.call = .ok c) : c.StandsIn r := by
  unfold Request.call at h
  split at h
  · cases h
  next resource =>
  split at h
  · cases h
  split at h
  · cases h
    trivial
  · cases h
    trivial
  · cases body : r.bodyValue? with
    | error e => simp [body, bind, Except.bind] at h
    | ok o =>
        simp only [body, bind, Except.bind] at h
        refine Decoded.also_all (Decoded.also_any (Decoded.all_of ?_)) decodeBody_all c
          (valid_eq_ok h)
        rintro index e ⟨v, rfl, decoded⟩
        exact ⟨v, body, decoded⟩
  · cases body : r.bodyValue? with
    | error e => simp [body, bind, Except.bind] at h
    | ok o =>
        simp only [body, bind, Except.bind] at h
        refine Decoded.also_all (Decoded.all_of ?_) decodeBody_all c (valid_eq_ok h)
        rintro d ⟨v, rfl, decoded⟩
        exact ⟨v, body, decoded⟩

/-- A body that is read as a value has it, unless it is null. -/
theorem bodyValue?_of_readable (readable : Readable .fragment 0 r.body v)
    (there : v.isNull = false) : r.bodyValue? = .ok (some v) := by
  have read := readable.read_eq_ok
  obtain ⟨c, rest, body, start⟩ := readable.start
  have mark : ¬(c.val == 0xFEFF) = true := by
    intro mark
    rw [show c = 0xFEFF from Fin.ext (eq_of_beq mark)] at start
    cases start
  unfold Request.bodyValue?
  rw [body] at read ⊢
  simp only [mark, Bool.false_eq_true, if_false, List.isEmpty_cons, read]
  cases v <;> first | rfl | cases there

/-- The value of a body is within the limits of its own reader. -/
theorem fits_of_bodyValue? (h : r.bodyValue? = .ok (some v)) :
    Bounded Dialect.fragment.Takes Dialect.fragment.maxDepth v := by
  unfold Request.bodyValue? at h
  dsimp only at h
  split at h
  · cases h
  split at h
  · cases h
  · next read =>
    cases h
    exact (fits_of_read read).mono (fun _ h => h) (fun _ _ => trivial) (fun _ h => h) le_rfl
  · split at h <;> cases h

/-- The value of a body has floating-point numbers of the format only. -/
theorem bounded_of_bodyValue? {ints : Int → Prop} {room : Nat} (h : r.bodyValue? = .ok (some v))
    (within : Within ints (fun _ => True) room v) : Bounded ints room v :=
  (within.and (fits_of_bodyValue? h)).mono (fun _ h => h.1) (fun _ _ => trivial) (fun _ h => h.2)
    le_rfl

/-- The files after a request are those after what it asks for. -/
theorem files_handle :
    (handle file r tree).2 = match r.call with
      | .error _ => tree
      | .ok c => (c.run file tree).2 := by
  unfold handle
  cases r.call with
  | error refusal => rfl
  | ok c => cases run : c.run file tree with
    | mk result tree' => cases result with
      | ok reply => simp [run]
      | error stop => cases stop <;> simp [run]

theorem run_data (holds : Holds file tree d) :
    Call.run file .data tree = (.ok (.value (finite (d.toJson false))), tree) := by
  rw [Call.run, FileTree.bind_apply, holds.load_eq]
  rfl

/-- A reply after an action changes no files. -/
theorem files_bind_pure (x : Action Unit) (reply : Reply) :
    ((x >>= fun _ => pure reply : Action Reply) tree).2 = (x tree).2 := by
  rw [FileTree.bind_apply]
  cases x tree with
  | mk result tree' => cases result <;> rfl

theorem files_update {index : Int} {e : Endpoint} (holds : Holds file tree d) :
    (Call.run file (.update index e) tree).2 = match replaceEndpoint? d index e with
      | none => tree
      | some d' => (store file d' tree).2 := by
  rw [Call.run, FileTree.bind_apply, holds.load_eq]
  dsimp only
  cases replaceEndpoint? d index e with
  | none => rfl
  | some d' => exact files_bind_pure (store file d') success

theorem files_saveAll :
    (Call.run file (.saveAll d) tree).2 =
      (store file { d with totalEndpoints := d.endpoints.length } tree).2 :=
  files_bind_pure (store file { d with totalEndpoints := d.endpoints.length }) success

/-- **One request leaves an intact file**, granted or not. -/
theorem handle_keeps_intact (wf : tree.WellFormed) (holds : ∃ d, Holds file tree d)
    (modest : r.Modest 2) :
    (handle file r tree).2.WellFormed ∧ ∃ d, Holds file (handle file r tree).2 d := by
  rw [files_handle]
  cases called : r.call with
  | error refusal => exact ⟨wf, holds⟩
  | ok c => cases c with
    | page => exact ⟨wf, holds⟩
    | data =>
        obtain ⟨d, held⟩ := id holds
        simp only [run_data held]
        exact ⟨wf, holds⟩
    | update index e =>
        obtain ⟨d, held⟩ := id holds
        obtain ⟨v, body, decoded⟩ := call_standsIn called
        -- Of 200 brackets two stand around the endpoint, which has four of its own at least.
        have bounded : Bounded Dialect.document.Takes (194 + 4) v :=
          bounded_of_bodyValue? body (modest.endpoint _ _ _ called body)
        simp only [files_update held]
        unfold replaceEndpoint?
        split_ifs
        · refine store_keeps_intact wf holds ⟨fun e' he' => ?_, held.storable.few, ?_⟩
          · rcases List.mem_or_eq_of_mem_set he' with old | rfl
            · exact held.storable.endpoints e' old
            · exact Endpoint.bounded_of_decode bounded _ decoded
          · simpa using held.2
        · exact ⟨wf, holds⟩
    | saveAll d =>
        obtain ⟨v, body, decoded⟩ := call_standsIn called
        have bounded : Bounded Dialect.document.Takes (194 + 6) v :=
          bounded_of_bodyValue? body (modest.whole _ _ called body)
        have endpoints := (Documentation.endpoints_bounded_of_decode le_rfl bounded d decoded).1
        simp only [files_saveAll]
        exact store_keeps_intact wf holds ⟨endpoints, modest.few d called, rfl⟩

/-! ### Documentations beyond the Limits -/

/-- **A documentation whose form is beyond the limits of the reader is written and not read back**:
where its file is intact, the form is within them. -/
theorem fits_of_holds_store (wf : tree.WellFormed) (holds : ∃ d, Holds file tree d)
    {ints : Int → Prop} {room : Nat} {d' : Documentation}
    (fits : (d.toJson false).Fits ints (·.isScalar = true) (fun _ => False) room)
    (stored : Holds file (store file d tree).2 d') :
    (d.toJson false).Fits Dialect.document.Takes Dialect.document.Gives Binary64.IsCanonical
      Dialect.document.maxDepth := by
  have print := Documentation.print_eq_ok_iff.mpr ⟨fits.firstSurrogates_eq_none, rfl⟩
  obtain ⟨length, taken⟩ := fits.exists_length
  have readable : Readable ⟨room, { Rules.of true with maxLength := length }⟩ 0
      (Json.print .indented (d.toJson false)) ((d.toJson false).mapFloats .float) :=
    (taken _ le_rfl).readable separates_indented (fun _ => False.elim) (Nat.zero_add room).le
  obtain ⟨scalar, lines⟩ := scalar_and_lines_of_isPrinted readable.printed
  obtain ⟨_, ⟨old, text, -⟩, -⟩ := holds
  obtain ⟨tree', written, -, text'⟩ := wf.exists_write_read text scalar lines
  unfold store at stored
  simp only [print, written] at stored
  obtain ⟨⟨t, found, decoded⟩, -⟩ := stored
  obtain rfl := Except.ok.inj (text'.symm.trans found)
  unfold Documentation.read Documentation.readWith at decoded
  split at decoded
  · cases decoded
  next w read =>
  exact fits_of_read_print separates_indented fits read

/-- **A documentation whose form is nested too deep is written and not read back.** -/
theorem not_holds_store (wf : tree.WellFormed) (holds : ∃ d, Holds file tree d)
    {ints : Int → Prop} {room : Nat}
    (fits : (d.toJson false).Fits ints (·.isScalar = true) (fun _ => False) room)
    (deep : Dialect.document.maxDepth < (d.toJson false).depth) (d' : Documentation) :
    ¬Holds file (store file d tree).2 d' := fun stored =>
  absurd (fits_of_holds_store wf holds fits stored).depth_le (Nat.not_le_of_lt deep)

end Editor

end RouteDocs
