import RouteDocs.Infer.Responses
import RouteDocs.Proofs.Json.Keys
import RouteDocs.Proofs.Json.Reader

/-!
# Merging the Answers of a Handler

The answers of a handler are those of its only literal payload, or those that are usual for its
method, changed by the answers that its comments annotate.

## Main Definitions

* `Response.notes`: the annotations of a text, with repetitions
* `Response.lastNote?`: the text of the last annotation of a status code

## Main Statements

* `Response.annotated_eq`: a text is read annotation by annotation, and the first one that cannot be
  used ends the reading
* `Response.annotated_eq_ok_iff`: what the annotations of a text give if all of them can be used
* `Response.statusCode_base`, `Response.nodup_keys_base`: the answers before annotations have their
  own codes, each once
* `Response.infer_merges`: **which answers a handler has, in which order, and what they say**

## Design Notes

What is known of each annotation is kept as a function on annotations, so that the map of all
answers is made from the list of the annotations itself, and what is known of maps made from lists
applies.
-/

namespace RouteDocs

namespace Response

open Pattern

variable {source status text code : Text} {found : Assoc Response} {r : Response}
  {ctx : RouteContext}

/-- The annotations of a text: status codes, each with the text behind it. -/
def notes (source : Text) : List (Text × Text) :=
  (note.findAll source).map fun m => (m.group 1, m.group 2)

/-- The text of the last annotation of a status code. -/
def lastNote? (source code : Text) : Option Text :=
  (((notes source).filter (·.1 == code)).getLast?).map (·.2)

/-- The entry that an annotation makes in the map of answers. -/
def entry (n : Text × Text) : Except NoteFault (Text × Response) :=
  (ofNote n.1 n.2).map fun r => (n.1, r)

/-! ### Steps That Can Fail -/

section

variable {α β ε : Type} {f : α → Except ε β} {g : α → β} {xs : List α} {ys : List β}

theorem mapM_eq_ok_map (each : ∀ x ∈ xs, f x = .ok (g x)) : xs.mapM f = .ok (xs.map g) := by
  induction xs with
  | nil => rfl
  | cons x xs ih =>
      obtain ⟨first, others⟩ := List.forall_mem_cons.mp each
      rw [List.mapM_cons, first, ih others]
      rfl

/-- If all steps are made, each of them is. -/
theorem exists_of_mapM_eq_ok (made : xs.mapM f = .ok ys) : ∀ x ∈ xs, ∃ y, f x = .ok y := by
  induction xs generalizing ys with
  | nil => exact List.forall_mem_nil _
  | cons x xs ih =>
      rw [List.mapM_cons] at made
      cases first : f x with
      | error e =>
          rw [first] at made
          cases made
      | ok y =>
          refine List.forall_mem_cons.mpr ⟨⟨y, first⟩, ?_⟩
          rw [first] at made
          cases others : xs.mapM f with
          | error e =>
              rw [others] at made
              cases made
          | ok ys' => exact ih others

end

/-! ### Annotations -/

/-- **A text is read annotation by annotation**: the first one that cannot be used ends the
reading, and the last one of a code counts. -/
theorem annotated_eq (source : Text) :
    annotated source = ((notes source).mapM entry).map Assoc.ofList := by
  -- the map that is filled so far is general
  have fold (ns : List (Text × Text)) (start : Assoc Response) :
      (ns.foldlM (fun found n => (ofNote n.1 n.2).map fun r => Assoc.put n.1 r found) start :
          Except NoteFault (Assoc Response)) = (ns.mapM entry).map (Assoc.update start) := by
    induction ns generalizing start with
    | nil => rfl
    | cons n more ih =>
        rw [List.foldlM_cons, List.mapM_cons, entry]
        cases ofNote n.1 n.2 with
        | error e => rfl
        | ok r =>
            refine (ih (Assoc.put n.1 r start)).trans ?_
            cases more.mapM entry <;> rfl
  have read := fold (notes source) []
  rwa [notes, List.foldlM_map] at read

/-- Annotations that can be used have answers. -/
theorem exists_answers {ns : List (Text × Text)}
    (usable : ∀ n ∈ ns, ∃ r, ofNote n.1 n.2 = .ok r) :
    ∃ answer : Text × Text → Response, ∀ n ∈ ns, ofNote n.1 n.2 = .ok (answer n) := by
  have known : ∀ n : Text × Text, ∃ r : Response, n ∈ ns → ofNote n.1 n.2 = .ok r := by
    intro n
    by_cases mem : n ∈ ns
    · obtain ⟨r, given⟩ := usable n mem
      exact ⟨r, fun _ => given⟩
    · exact ⟨⟨[], [], .null, [], []⟩, fun mem' => absurd mem' mem⟩
  choose answer each using known
  exact ⟨answer, each⟩

/-- **What annotations give if all of them can be used.** -/
theorem annotated_eq_ok_iff : annotated source = .ok found ↔
    ∃ answer : Text × Text → Response, (∀ n ∈ notes source, ofNote n.1 n.2 = .ok (answer n)) ∧
      found = Assoc.ofList ((notes source).map fun n => (n.1, answer n)) := by
  rw [annotated_eq]
  have all {answer : Text × Text → Response}
      (each : ∀ n ∈ notes source, ofNote n.1 n.2 = .ok (answer n)) :
      (notes source).mapM entry = .ok ((notes source).map fun n => (n.1, answer n)) := by
    refine mapM_eq_ok_map fun n mem => ?_
    rw [entry, each n mem]
    rfl
  constructor
  · intro read
    obtain ⟨entries, made, -⟩ := Json.map_eq_ok.mp read
    obtain ⟨answer, each⟩ := exists_answers fun n mem => by
      obtain ⟨y, step⟩ := exists_of_mapM_eq_ok made n mem
      obtain ⟨r, given, -⟩ := Json.map_eq_ok.mp step
      exact ⟨r, given⟩
    refine ⟨answer, each, ?_⟩
    rw [all each] at read
    exact (Except.ok.inj read).symm
  · rintro ⟨answer, each, rfl⟩
    rw [all each]
    rfl

/-- Annotations give answers exactly if each of them can be used. -/
theorem exists_annotated_iff :
    (∃ found, annotated source = .ok found) ↔ ∀ n ∈ notes source, ∃ r, ofNote n.1 n.2 = .ok r := by
  constructor
  · rintro ⟨found, read⟩
    obtain ⟨answer, each, -⟩ := annotated_eq_ok_iff.mp read
    exact fun n mem => ⟨_, each n mem⟩
  · intro usable
    obtain ⟨answer, each⟩ := exists_answers usable
    exact ⟨_, annotated_eq_ok_iff.mpr ⟨answer, each, rfl⟩⟩

/-- The answer of an annotation has the code of the annotation. -/
theorem statusCode_of_ofNote (given : ofNote status text = .ok r) : r.statusCode = status := by
  unfold ofNote at given
  dsimp only at given
  split at given
  · cases given
    rfl
  · split at given
    · split at given
      · cases given
      · cases given
      · cases given
        rfl
    · split at given
      · cases given
      · cases given
        rfl

/-! ### Answers before Annotations -/

/-- A literal answer has a status of success. -/
theorem head?_statusCode_of_literal? (seen : literal? source = some r) :
    r.statusCode.head? = some ('2' : CodePoint) := by
  obtain ⟨m, -, held⟩ := List.exists_of_findSome?_eq_some seen
  dsimp only at held
  split at held
  · cases held
  · next success =>
    obtain ⟨payload, -, rfl⟩ := Option.map_eq_some_iff.mp held
    simpa using success

/-- The answers before annotations have their own codes. -/
theorem statusCode_base : ∀ p ∈ base ctx, p.2.statusCode = p.1 := by
  unfold base
  split
  · exact List.forall_mem_singleton.mpr rfl
  · unfold defaults
    split <;> simp [simple]

/-- No code stands twice before annotations. -/
theorem nodup_keys_base : (base ctx).keys.Nodup := by
  unfold base
  split
  · exact List.nodup_singleton _
  · unfold defaults
    split <;> decide

/-! ### All Answers -/

/-- An answer decides what a handler says for a status code. -/
structure Decides (ctx : RouteContext) (code : Text) (a : Response) : Prop where
  /-- It is the answer of the last annotation of the code, if there is one. -/
  annotated : ∀ text, lastNote? ctx.source code = some text → ofNote code text = .ok a
  /-- Otherwise it is the answer before annotations. -/
  unannotated : lastNote? ctx.source code = none → (code, a) ∈ base ctx

/-- Each of the answers that annotations have changed decides for its code. -/
theorem decides_of_mem_update {answer : Text × Text → Response} {a : Response}
    (each : ∀ n ∈ notes ctx.source, ofNote n.1 n.2 = .ok (answer n))
    (mem : (code, a) ∈ (base ctx).update ((notes ctx.source).map fun n => (n.1, answer n))) :
    Decides ctx code a ∧ a.statusCode = code := by
  have value := Assoc.get?_eq_some (Assoc.nodup_update nodup_keys_base) mem
  rw [Assoc.get?_update, List.filter_map, List.getLast?_map, Option.map_map] at value
  cases last : ((notes ctx.source).filter (·.1 == code)).getLast? with
  | none =>
      have noted : lastNote? ctx.source code = none := by rw [lastNote?, last]; rfl
      have same : ((notes ctx.source).filter
          ((·.1 == code) ∘ fun n => (n.1, answer n))).getLast? = none := last
      rw [same, Option.map_none, Option.none_or] at value
      have own := Assoc.mem_of_get? value
      refine ⟨⟨fun text given => ?_, fun _ => own⟩, statusCode_base _ own⟩
      rw [noted] at given
      cases given
  | some n =>
      have noted : lastNote? ctx.source code = some n.2 := by rw [lastNote?, last]; rfl
      have same : ((notes ctx.source).filter
          ((·.1 == code) ∘ fun n => (n.1, answer n))).getLast? = some n := last
      rw [same, Option.map_some, Option.some_or] at value
      obtain rfl : answer n = a := Option.some.inj value
      obtain ⟨listed, named⟩ := List.mem_filter.mp (List.mem_of_getLast? last)
      obtain rfl : n.1 = code := eq_of_beq named
      have given := each n listed
      refine ⟨⟨fun text same => ?_, fun absent => ?_⟩, statusCode_of_ofNote given⟩
      · rw [noted] at same
        cases same
        exact given
      · rw [noted] at absent
        cases absent

/-- **Which answers a handler has, in which order, and what they say.** Before annotations there is
the literal answer, which is one of success, or those usual for the method. Annotations change them
in place, and further codes follow in the order of their first annotation. What is said for a code
is decided by its last annotation, or else by the answer before annotations, and all answers
mention the same fields. -/
theorem infer_merges (inferred : infer ctx = .ok found) :
    (∀ r, literal? ctx.source = some r →
      base ctx = [(r.statusCode, r)] ∧ r.statusCode.head? = some ('2' : CodePoint)) ∧
    (literal? ctx.source = none → base ctx = defaults ctx.verb?) ∧
    found.keys = (base ctx).keys ++
      ((notes ctx.source).map (·.1)).eraseDups.filter (· ∉ (base ctx).keys) ∧
    found.keys.Nodup ∧
    ∀ code r, (code, r) ∈ found → r.statusCode = code ∧ ∃ a, Decides ctx code a ∧
      r.description = a.description ∧ r.example? = a.example? ∧
      r.requiredFields = requiredNames ctx.source ∧
      r.optionalFields = optionalNames ctx.source := by
  obtain ⟨changes, read, rfl⟩ := Json.map_eq_ok.mp inferred
  obtain ⟨answer, each, rfl⟩ := annotated_eq_ok_iff.mp read
  rw [Assoc.update_ofList nodup_keys_base]
  have keys (m : Assoc Response) : Assoc.keys (m.map fun p =>
      (p.1, { p.2 with
        requiredFields := requiredNames ctx.source
        optionalFields := optionalNames ctx.source })) = m.keys := by
    rw [Assoc.keys, List.map_map]
    rfl
  refine ⟨fun r seen => ⟨?_, head?_statusCode_of_literal? seen⟩, fun unseen => ?_, ?_, ?_, ?_⟩
  · rw [base, seen]
  · rw [base, unseen]
  · rw [keys, Assoc.keys_update, List.map_map]
    rfl
  · rw [keys]
    exact Assoc.nodup_update nodup_keys_base
  · intro code r mem
    obtain ⟨⟨code, a⟩, updated, same⟩ := List.mem_map.mp mem
    cases same
    obtain ⟨decides, named⟩ := decides_of_mem_update each updated
    exact ⟨named, a, decides, rfl, rfl, rfl, rfl⟩

/-- A request for one user, whose success is annotated twice and which can be refused. -/
def ofUser : RouteContext where
  method := "GET"
  url := "/api/users/{id}"
  file := "users/[id]/route.ts"
  content := Text.ofString
    "// @response 200 A user\n// @response 403 Refused\n// @response 200 The user\n"
  ownPart := none
  handlerOffset := none
  loginEndpoint := RouteContext.defaultLogin

/-- The answers to it: the usual ones changed in place, and the refusal behind them. -/
def answersOfUser : Assoc Response := [
  ("200", ⟨"200", "The user", .null, [], []⟩),
  ("404", ⟨"404", "Not found", .obj [("error", .str "Resource not found")], [], []⟩),
  ("403", ⟨"403", "Refused", .null, [], []⟩)]

theorem infer_merges_ofUser : infer ofUser = .ok answersOfUser ∧ answersOfUser.keys.Nodup ∧
    ∀ code r, (code, r) ∈ answersOfUser → r.statusCode = code := by
  have inferred : infer ofUser = .ok answersOfUser := rfl
  obtain ⟨-, -, -, nodup, each⟩ := infer_merges inferred
  exact ⟨inferred, nodup, fun code r mem => (each code r mem).1⟩

end Response

end RouteDocs
