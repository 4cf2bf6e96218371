import Mathlib.Data.Bool.Count
import RouteDocs.Proofs.Editor.Kept

/-!
# Overlapping Edits

What the file holds after two requests to replace endpoints that the editor works on at the same
time, where each one reads the whole documentation and writes it back later.

## Main Definitions

* `Editor.Edit`: a request to replace an endpoint, with its two steps `Editor.Edit.read` and
  `Editor.write`
* `Editor.Session`: the files, and how far two requests have come
* `Editor.Session.run`: turns of the two requests in some order
* `Editor.Log`: which edits the file holds and the requests have read

## Main Statements

* `Editor.Session.run_alone`: the two turns of a request without others in between are the call
* `Editor.Tracks.step`, `Editor.Tracks.run`: the log tells what the file holds
* `Editor.edits_held`: **the file keeps both edits if one request has answered before the other one
  reads, and else the edit of the one that writes last**
* `Editor.not_edits_held`: an edit is lost, or not held as it was given

## Design Notes

Every order of the turns is followed at once: the log does the same steps with lists of edits as the
session does with files, and only at the end are the six orders of four turns told apart.
-/

namespace RouteDocs

open Json

namespace Editor

variable {file : FilePath} {tree tree' : FileTree} {d d' : Documentation}

/-! ### Reading and Writing -/

/-- A request to replace the endpoint with a number. -/
structure Edit where
  /-- The number. -/
  index : Int
  /-- The endpoint to put in the place of the old one. -/
  endpoint : Endpoint

/-- The documentation with the endpoint of an edit in the place of the old one. -/
def Edit.apply (edit : Edit) (d : Documentation) : Documentation :=
  { d with endpoints := d.endpoints.set edit.index.toNat edit.endpoint }

/-- The first step of a request: the documentation is read, and changed. -/
def Edit.read (file : FilePath) (edit : Edit) : Action Documentation := do
  let d ← load file
  match replaceEndpoint? d edit.index edit.endpoint with
  | none => throw (.refused .noSuchEndpoint)
  | some d => pure d

/-- The second step of a request: the documentation is written back. -/
def write (file : FilePath) (d : Documentation) : Action Reply := do
  store file d
  pure success

/-- **To replace an endpoint is to read and to write.** -/
theorem run_update (file : FilePath) (edit : Edit) :
    Call.run file (.update edit.index edit.endpoint) =
      (do write file (← edit.read file) : Action Reply) := by
  funext tree
  rw [Call.run, Edit.read, FileTree.bind_apply, FileTree.bind_apply, FileTree.bind_apply]
  rcases load file tree with ⟨result, tree'⟩
  cases result with
  | error stop => rfl
  | ok d =>
      dsimp only
      cases replaceEndpoint? d edit.index edit.endpoint <;> rfl

/-! ### Turns -/

/-- How far a request has come. -/
inductive Stage (α β : Type) where
  /-- It has done nothing yet. -/
  | asked
  /-- It has read, and keeps what it is going to write. -/
  | changed (a : α)
  /-- It has written, and answered. -/
  | answered (b : β)

/-- The files, and how far two requests have come. -/
structure Session where
  /-- The files. -/
  tree : FileTree
  /-- How far each request has come. -/
  stage : Bool → Stage Documentation (Except Stop Reply)

namespace Session

/-- The session in which no request has done anything. -/
def start (tree : FileTree) : Session := ⟨tree, fun _ => .asked⟩

/-- The session after a turn of a request, which is its next step. -/
def step (file : FilePath) (edits : Bool → Edit) (s : Session) (x : Bool) : Session :=
  match s.stage x with
  | .asked =>
    match (edits x).read file s.tree with
    | (.ok d, tree) => ⟨tree, Function.update s.stage x (.changed d)⟩
    | (.error stop, tree) => ⟨tree, Function.update s.stage x (.answered (.error stop))⟩
  | .changed d =>
    let written := write file d s.tree
    ⟨written.2, Function.update s.stage x (.answered written.1)⟩
  | .answered _ => s

/-- The session after turns of requests in an order. -/
def run (file : FilePath) (edits : Bool → Edit) (turns : List Bool) (s : Session) : Session :=
  turns.foldl (step file edits) s

/-- Both requests were granted. -/
def Granted (s : Session) : Prop := ∀ x, s.stage x = .answered (.ok success)

/-- The file holds both edits. -/
def HoldsBoth (file : FilePath) (edits : Bool → Edit) (s : Session) : Prop :=
  ∃ d, Reads file s.tree d ∧
    ∀ x, d.endpoints[(edits x).index.toNat]? = some (edits x).endpoint

/-- Some request was answered with an error. -/
def Failed (s : Session) : Prop := ∃ x stop, s.stage x = .answered (.error stop)

variable {edits : Bool → Edit} {s : Session} {x : Bool}

/-- **The two turns of a request without others in between are the call.** -/
theorem run_alone (asked : s.stage x = .asked) :
    run file edits [x, x] s =
      ⟨(Call.run file (.update (edits x).index (edits x).endpoint) s.tree).2,
        Function.update s.stage x
          (.answered (Call.run file (.update (edits x).index (edits x).endpoint) s.tree).1)⟩ := by
  have first : s.step file edits x = match (edits x).read file s.tree with
      | (.ok d, tree) => ⟨tree, Function.update s.stage x (.changed d)⟩
      | (.error stop, tree) => ⟨tree, Function.update s.stage x (.answered (.error stop))⟩ := by
    rw [step, asked]
  rw [run_update, FileTree.bind_apply]
  show (s.step file edits x).step file edits x = _
  rw [first]
  rcases (edits x).read file s.tree with ⟨result, tree'⟩
  cases result with
  | error stop => simp only [step, Function.update_self]
  | ok d => simp only [step, Function.update_self, Function.update_idem]

/-- A turn leaves an answered request as it is. -/
theorem Failed.step (failed : s.Failed) : (s.step file edits x).Failed := by
  obtain ⟨y, stop, answered⟩ := failed
  refine ⟨y, stop, ?_⟩
  by_cases same : x = y
  · subst same
    rw [Session.step, answered]
    exact answered
  · have other {stage : Stage Documentation (Except Stop Reply)} :
        Function.update s.stage x stage y = .answered (.error stop) := by
      rwa [Function.update_of_ne (Ne.symm same)]
    unfold Session.step
    split
    · split <;> exact other
    · exact other
    · exact answered

theorem Failed.run {turns : List Bool} (failed : s.Failed) : (s.run file edits turns).Failed := by
  induction turns generalizing s with
  | nil => exact failed
  | cons x more ih => exact ih failed.step

end Session

/-! ### The Log -/

/-- Which edits the file holds, and which ones the requests are going to write. -/
structure Log where
  /-- The edits that the file holds, in the order in which they were made. -/
  held : List Bool
  /-- How far each request has come. -/
  stage : Bool → Stage (List Bool) Unit

namespace Log

/-- The log before any edit. -/
def start : Log := ⟨[], fun _ => .asked⟩

/-- The log after a turn. -/
def step (l : Log) (x : Bool) : Log :=
  match l.stage x with
  | .asked => ⟨l.held, Function.update l.stage x (.changed (l.held ++ [x]))⟩
  | .changed made => ⟨made, Function.update l.stage x (.answered ())⟩
  | .answered _ => l

/-- The log after turns in an order. -/
def run (turns : List Bool) (l : Log) : Log := turns.foldl step l

end Log

/-- Endpoints after some edits. -/
def made (edits : Bool → Edit) (es : List Endpoint) (held : List Bool) : List Endpoint :=
  held.foldl (fun es x => es.set (edits x).index.toNat (edits x).endpoint) es

/-- Endpoints that the file keeps in the same way as some others. -/
def Shows (es es' : List Endpoint) : Prop := es'.map Endpoint.kept = es.map Endpoint.kept

/-- A request is as far as the log tells. -/
def Follows (edits : Bool → Edit) (d : Documentation) :
    Stage Documentation (Except Stop Reply) → Stage (List Bool) Unit → Prop
  | .asked, .asked => True
  | .changed d', .changed held => Shows (made edits d.endpoints held) d'.endpoints ∧ IsBounded d'
  | .answered answer, .answered _ => answer = .ok success
  | _, _ => False

/-- **The log tells** which edits the file holds and the requests are going to write. -/
structure Tracks (file : FilePath) (edits : Bool → Edit) (d : Documentation) (s : Session)
    (l : Log) : Prop where
  /-- The file holds the edits of the log, and after the first one it holds what it keeps. -/
  file : ∃ d', Reads file s.tree d' ∧ Shows (made edits d.endpoints l.held) d'.endpoints ∧
    (l.held ≠ [] → d'.endpoints.map Endpoint.kept = d'.endpoints)
  /-- Requests are as far as the log tells. -/
  stage : ∀ x, Follows edits d (s.stage x) (l.stage x)

section

variable {es es' : List Endpoint} {edits : Bool → Edit} {held : List Bool} {x : Bool}

theorem Shows.length_eq (h : Shows es es') : es'.length = es.length := by
  simpa using congrArg List.length h

theorem Shows.set {e : Endpoint} (h : Shows es es') (i : Nat) :
    Shows (es.set i e) (es'.set i e) := by
  unfold Shows at h ⊢
  rw [List.map_set, List.map_set, h]

theorem length_made : (made edits es held).length = es.length := by
  unfold made
  induction held generalizing es with
  | nil => rfl
  | cons x more ih => rw [List.foldl_cons, ih, List.length_set]

theorem made_append : made edits es (held ++ [x]) =
    (made edits es held).set (edits x).index.toNat (edits x).endpoint :=
  List.foldl_append

/-- What is written was stored, unless there is an error. -/
theorem write_cases (file : FilePath) (d : Documentation) (tree : FileTree) :
    (∃ stop, (write file d tree).1 = .error stop) ∨
      ∃ tree', store file d tree = (.ok (), tree') ∧ write file d tree = (.ok success, tree') := by
  rw [write, FileTree.bind_apply]
  rcases store file d tree with ⟨result, tree'⟩
  cases result with
  | error stop => exact .inl ⟨stop, rfl⟩
  | ok _ => exact .inr ⟨tree', rfl, rfl⟩

/-- What a request reads, it changes at a number that is there. -/
theorem Edit.read_eq_ok {edit : Edit} (reads : Reads file tree d)
    (inside : 0 ≤ edit.index ∧ edit.index < d.endpoints.length) :
    edit.read file tree = (.ok (edit.apply d), tree) := by
  rw [Edit.read, FileTree.bind_apply, reads.load_eq]
  simp only [replaceEndpoint?, if_pos inside]
  rfl

end

/-! ### Runs -/

section

variable {edits : Bool → Edit} {s : Session} {l : Log}

/-- **A turn does to the log what it does to the session**, or fails. -/
theorem Tracks.step (h : Tracks file edits d s l) (x : Bool)
    (inside : 0 ≤ (edits x).index ∧ (edits x).index < d.endpoints.length)
    (bounded : Bounded Dialect.document.Takes 198 ((edits x).endpoint.toJson false)) :
    Tracks file edits d (s.step file edits x) (l.step x) ∨ (s.step file edits x).Failed := by
  obtain ⟨d', reads, shows, settled⟩ := h.file
  have follows := h.stage x
  have others {stage : Stage Documentation (Except Stop Reply)} {stage' : Stage (List Bool) Unit}
      (here : Follows edits d stage stage') (y : Bool) :
      Follows edits d (Function.update s.stage x stage y)
        (Function.update l.stage x stage' y) := by
    by_cases same : y = x
    · subst same
      rwa [Function.update_self, Function.update_self]
    · rw [Function.update_of_ne same, Function.update_of_ne same]
      exact h.stage y
  cases stage : s.stage x with
  | asked =>
      cases stage' : l.stage x with
      | changed held | answered _ => rw [stage, stage'] at follows; cases follows
      | asked =>
          have inside' : 0 ≤ (edits x).index ∧ (edits x).index < d'.endpoints.length := by
            rwa [shows.length_eq, length_made]
          simp only [Session.step, Log.step, stage, stage', Edit.read_eq_ok reads inside']
          refine .inl ⟨⟨d', reads, shows, settled⟩,
            others ⟨?_, fun e mem => ?_, reads.isBounded.2⟩⟩
          · rw [made_append]
            exact shows.set _
          · rcases List.mem_or_eq_of_mem_set mem with old | rfl
            · exact reads.isBounded.1 e old
            · exact bounded
  | changed d'' =>
      cases stage' : l.stage x with
      | asked | answered _ => rw [stage, stage'] at follows; cases follows
      | changed held =>
          rw [stage, stage'] at follows
          obtain ⟨shows', bounded'⟩ := follows
          simp only [Session.step, Log.step, stage, stage']
          rcases write_cases file d'' s.tree with ⟨stop, failed⟩ | ⟨tree', stored, written⟩
          · exact .inr ⟨x, stop, (Function.update_self ..).trans (congrArg Stage.answered failed)⟩
          · rw [written]
            obtain ⟨d₁, reads', kept⟩ := exists_reads_of_stored bounded' stored
            have again : d₁.endpoints.map Endpoint.kept = d₁.endpoints := by
              rw [kept, List.map_map]
              exact List.map_congr_left fun e _ => e.kept_kept
            exact .inl ⟨⟨d₁, reads', again.trans (kept.trans shows'), fun _ => again⟩, others rfl⟩
  | answered answer =>
      cases stage' : l.stage x with
      | asked | changed _ => rw [stage, stage'] at follows; cases follows
      | answered _ =>
          simp only [Session.step, Log.step, stage, stage']
          exact .inl h

/-- **The log of a run tells what the file holds after it**, unless something fails. -/
theorem Tracks.run {turns : List Bool} (h : Tracks file edits d s l)
    (inside : ∀ x, 0 ≤ (edits x).index ∧ (edits x).index < d.endpoints.length)
    (bounded : ∀ x, Bounded Dialect.document.Takes 198 ((edits x).endpoint.toJson false)) :
    Tracks file edits d (s.run file edits turns) (l.run turns) ∨
      (s.run file edits turns).Failed := by
  induction turns generalizing s l with
  | nil => exact .inl h
  | cons x more ih =>
      rcases h.step x (inside x) (bounded x) with tracks | failed
      · exact ih tracks
      · exact .inr failed.run

theorem Tracks.start (reads : Reads file tree d) :
    Tracks file edits d (.start tree) .start :=
  ⟨⟨d, reads, rfl, fun some => absurd rfl some⟩, fun _ => trivial⟩

/-- Two requests with two turns each take four turns. -/
theorem exists_turns {turns : List Bool} (two : ∀ x, turns.count x = 2) :
    ∃ w x y z, turns = [w, x, y, z] := by
  have length := List.count_false_add_count_true turns
  rw [two, two] at length
  match turns, length with
  | [w, x, y, z], _ => exact ⟨w, x, y, z, rfl⟩

/-- Both edits are held if one request takes its turns before the other one. -/
theorem Log.held_apart (x : Bool) : (Log.start.run [x, x, !x, !x]).held = [x, !x] := by
  cases x <;> rfl

/-- Else the last edit alone is held. -/
theorem Log.held_overlapping {turns : List Bool} {x : Bool} (two : ∀ x, turns.count x = 2)
    (last : turns.getLast? = some x) (overlap : turns ≠ [!x, !x, x, x]) :
    (Log.start.run turns).held = [x] := by
  obtain ⟨a, b, c, d, rfl⟩ := exists_turns two
  obtain rfl : d = x := Option.some.inj last
  have first := two d
  revert overlap first
  clear two last
  cases a <;> cases b <;> cases c <;> cases d <;> decide

/-- The endpoint that a modest request asks for is within the limits of the file. -/
theorem bounded_of_modest {r : Request} {index : Int} {e : Endpoint}
    (called : r.call = .ok (.update index e)) (modest : r.Modest 2) :
    Bounded Dialect.document.Takes (194 + 4) (e.toJson false) := by
  obtain ⟨v, body, decoded⟩ := call_standsIn called
  exact Endpoint.bounded_of_decode
    (bounded_of_bodyValue? body (modest.endpoint _ _ _ called body)) _ decoded

/-- **What the file holds after two edits** of different endpoints that were both granted, where
each request reads in its first turn and writes in its second one. If one request has written
before the other one reads, the file keeps both edits. Else it keeps the edit of the request that
writes last, and in the place of the other edit what was there before. The bodies of the requests
leave room for the two brackets around an endpoint. An endpoint whose numbers are finite is kept as
it is. -/
theorem edits_held {turns : List Bool} {requests : Bool → Request} (reads : Reads file tree d)
    (called : ∀ x, (requests x).call = .ok (.update (edits x).index (edits x).endpoint))
    (modest : ∀ x, (requests x).Modest 2)
    (distinct : (edits false).index ≠ (edits true).index)
    (inside : ∀ x, 0 ≤ (edits x).index ∧ (edits x).index < d.endpoints.length)
    (two : ∀ x, turns.count x = 2)
    (granted : ((Session.start tree).run file edits turns).Granted) :
    (∀ x, turns = [x, x, !x, !x] →
      ∃ d', Reads file ((Session.start tree).run file edits turns).tree d' ∧
        d'.endpoints[(edits x).index.toNat]? = some (edits x).endpoint.kept ∧
        d'.endpoints[(edits !x).index.toNat]? = some (edits !x).endpoint.kept ∧
        d'.endpoints = (((edits x).apply d).endpoints.set (edits !x).index.toNat
          (edits !x).endpoint).map Endpoint.kept) ∧
    (∀ x, turns.getLast? = some x → turns ≠ [!x, !x, x, x] →
      ∃ d', Reads file ((Session.start tree).run file edits turns).tree d' ∧
        d'.endpoints[(edits x).index.toNat]? = some (edits x).endpoint.kept ∧
        d'.endpoints[(edits !x).index.toNat]? =
          d.endpoints[(edits !x).index.toNat]?.map Endpoint.kept ∧
        d'.endpoints = ((edits x).apply d).endpoints.map Endpoint.kept) ∧
    ∀ e : Endpoint, (e.toJson false).FloatsIn Binary64.IsFinite → e.kept = e := by
  have apart (x : Bool) : (edits x).index.toNat ≠ (edits !x).index.toNat := by
    have := inside x
    have := inside !x
    cases x <;> simp only [Bool.not_true, Bool.not_false] at * <;> omega
  have there (x : Bool) : (edits x).index.toNat < d.endpoints.length := by
    have := inside x
    omega
  have reached : Tracks file edits d ((Session.start tree).run file edits turns) _ ∨ _ :=
    (Tracks.start reads).run inside fun x => bounded_of_modest (called x) (modest x)
  rcases reached with tracks | ⟨x, stop, failed⟩
  · obtain ⟨d', reads', shows, settled⟩ := tracks.file
    have holds {held : List Bool} (order : (Log.start.run turns).held = held) (some : held ≠ []) :
        d'.endpoints = (made edits d.endpoints held).map Endpoint.kept := by
      rw [order] at shows settled
      exact (settled some).symm.trans shows
    refine ⟨fun x order => ⟨d', reads', ?_⟩, fun x last overlap => ⟨d', reads', ?_⟩,
      fun e => Endpoint.kept_eq_self⟩
    · have both : d'.endpoints = (((edits x).apply d).endpoints.set (edits !x).index.toNat
          (edits !x).endpoint).map Endpoint.kept :=
        @holds [x, !x] (by rw [order, Log.held_apart]) (List.cons_ne_nil _ _)
      refine ⟨?_, ?_, both⟩
      · rw [both, List.getElem?_map, List.getElem?_set_ne (apart x).symm, Edit.apply,
          List.getElem?_set_self (there x), Option.map_some]
      · rw [both, List.getElem?_map, List.getElem?_set_self, Option.map_some]
        rw [Edit.apply, List.length_set]
        exact there _
    · have one : d'.endpoints = ((edits x).apply d).endpoints.map Endpoint.kept :=
        @holds [x] (Log.held_overlapping two last overlap) (List.cons_ne_nil _ _)
      refine ⟨?_, ?_, one⟩
      · rw [one, List.getElem?_map, Edit.apply, List.getElem?_set_self (there x), Option.map_some]
      · rw [one, List.getElem?_map, Edit.apply, List.getElem?_set_ne (apart x)]
  · cases (granted x).symm.trans failed

end

/-! ### Two Endpoints -/

variable {edits : Bool → Edit}

/-- What was stored is read if it is within the limits of the reader. -/
theorem reads_of_stored (described : d.info.description ≠ none)
    (fits : (d.toJson false).Fits Dialect.document.Takes (·.isScalar = true) (fun _ => False)
      Dialect.document.maxDepth)
    (stored : store file d tree = (.ok (), tree')) : Reads file tree' d :=
  ⟨_, (store_eq_ok stored).2, Documentation.read_print described fits⟩

/-- A request that asks reads. -/
theorem Session.step_asked {s : Session} {x : Bool} (asked : s.stage x = .asked)
    (reads : Reads file s.tree d)
    (inside : 0 ≤ (edits x).index ∧ (edits x).index < d.endpoints.length) :
    s.step file edits x = ⟨s.tree, Function.update s.stage x (.changed ((edits x).apply d))⟩ := by
  simp only [step, asked, Edit.read_eq_ok reads inside]

/-- A request that has read writes. -/
theorem Session.step_changed {s : Session} {x : Bool} (changed : s.stage x = .changed d)
    (stored : store file d s.tree = (.ok (), tree')) :
    s.step file edits x = ⟨tree', Function.update s.stage x (.answered (.ok success))⟩ := by
  have written : write file d s.tree = (.ok success, tree') := by
    rw [write, FileTree.bind_apply, stored]
    rfl
  simp only [step, changed, written]

/-- Requests that take their turns one after the other are granted. -/
theorem run_apart {tree₁ tree₂ : FileTree} {d₁ : Documentation} (reads : Reads file tree d)
    (inside : 0 ≤ (edits false).index ∧ (edits false).index < d.endpoints.length)
    (stored : store file ((edits false).apply d) tree = (.ok (), tree₁))
    (reads₁ : Reads file tree₁ d₁)
    (inside₁ : 0 ≤ (edits true).index ∧ (edits true).index < d₁.endpoints.length)
    (stored₁ : store file ((edits true).apply d₁) tree₁ = (.ok (), tree₂)) :
    ((Session.start tree).run file edits [false, false, true, true]).tree = tree₂ ∧
      ((Session.start tree).run file edits [false, false, true, true]).Granted := by
  rw [Session.run, List.foldl_cons, Session.step_asked rfl reads inside, List.foldl_cons,
    Session.step_changed (by rfl) stored, List.foldl_cons,
    Session.step_asked (by rfl) reads₁ inside₁, List.foldl_cons,
    Session.step_changed (by rfl) stored₁, List.foldl_nil]
  exact ⟨rfl, Bool.forall_bool.mpr ⟨rfl, rfl⟩⟩

/-- Requests that both read before they write are granted. -/
theorem run_overlapping {tree₁ tree₂ : FileTree} (reads : Reads file tree d)
    (inside : ∀ x, 0 ≤ (edits x).index ∧ (edits x).index < d.endpoints.length)
    (stored : store file ((edits false).apply d) tree = (.ok (), tree₁))
    (stored₁ : store file ((edits true).apply d) tree₁ = (.ok (), tree₂)) :
    ((Session.start tree).run file edits [false, true, false, true]).tree = tree₂ ∧
      ((Session.start tree).run file edits [false, true, false, true]).Granted := by
  rw [Session.run, List.foldl_cons, Session.step_asked rfl reads (inside false), List.foldl_cons,
    Session.step_asked (by rfl) reads (inside true), List.foldl_cons,
    Session.step_changed (by rfl) stored, List.foldl_cons,
    Session.step_changed (by rfl) stored₁, List.foldl_nil]
  exact ⟨rfl, Bool.forall_bool.mpr ⟨rfl, rfl⟩⟩

/-- A documentation of two endpoints. -/
def pair (e₀ e₁ : Endpoint) : Documentation :=
  ⟨⟨"Users", "1.0.0", some "", none, none⟩, [e₀, e₁], 2, "2024-05-01"⟩

/-- Edits of both endpoints, the second one to an endpoint with a given example. -/
def pairEdits (v : Json) : Bool → Edit
  | false => ⟨0, endpointWith (nested 2)⟩
  | true => ⟨1, endpointWith v⟩

/-- The requests for these edits. -/
def pairRequests (v : Json) (x : Bool) : Request :=
  .putEndpoint (pairEdits v x).index
    (Json.print .indented ((pairEdits v x).endpoint.toJson false))

section

variable {ints : Int → Prop} {floats : Binary64 → Prop} {room : Nat} {v : Json}

theorem fits_pair {e₀ e₁ : Endpoint} (two : ints 2)
    (fits₀ : (e₀.toJson false).Fits ints (·.isScalar = true) floats room)
    (fits₁ : (e₁.toJson false).Fits ints (·.isScalar = true) floats room) :
    ((pair e₀ e₁).toJson false).Fits ints (·.isScalar = true) floats (room + 2) := by
  refine Documentation.fits_iff.mpr ⟨?_, by simp [pair, fits₀, fits₁], two, rfl⟩
  simp [pair, Info.toJson, record, isNull, ofText?]

/-- The form of an endpoint has the limits of the example in it. -/
theorem fits_endpointWith_of_fits (fits : v.Fits ints (·.isScalar = true) floats room) :
    ((endpointWith v).toJson false).Fits ints (·.isScalar = true) floats (room + 3) := by
  have widened := fits.mono (fun _ h => h) (fun _ h => h) (fun _ h => h) (Nat.le_succ room)
  cases v <;>
    simp [endpointWith, Endpoint.toJson, Endpoint.members, RequestBody.toJson, record, isNull,
      ofText?, ofTexts, widened]

/-- An integer that the editor keeps as an example is within the limits of a readable file. -/
theorem takes_of_isReadable {e : Endpoint} {i : Int}
    (readable : (pair e (endpointWith (.int i))).IsReadable) : Dialect.document.Takes i := by
  have endpoint : Within Dialect.document.Takes (fun _ => True) 198
      ((endpointWith (.int i)).toJson false) := by
    cases readable with
    | obj _ _ values =>
        exact Fits.arr_iff.mp (values ("endpoints", .arr [e.toJson false, _])
          (List.mem_cons_of_mem _ (List.mem_cons_self ..))) _ (List.mem_cons_of_mem _ (by simp))
  simpa [endpointWith, Endpoint.toJson, Endpoint.members, RequestBody.toJson, record, isNull,
    ofText?, ofTexts] using endpoint

/-- The pair with two nested examples is within the limits of the reader. -/
theorem fits_pair_nested {m n : Nat} (hm : m ≤ 195) (hn : n ≤ 195) :
    ((pair (endpointWith (nested (m + 1))) (endpointWith (nested (n + 1)))).toJson false).Fits
      Dialect.document.Takes (·.isScalar = true) (fun _ => False) Dialect.document.maxDepth := by
  have widened {k : Nat} (le : k ≤ 195) : ((endpointWith (nested (k + 1))).toJson false).Fits
      Dialect.document.Takes (·.isScalar = true) (fun _ => False) 198 :=
    (fits_endpointWith (by decide) k).mono (fun _ h => h) (fun _ h => h) (fun _ h => h) (by omega)
  exact fits_pair (by decide) (widened hm) (widened hn)

/-- There is a file of two endpoints. -/
theorem exists_pairTree : ∃ tree : FileTree, tree.WellFormed ∧
    Reads (.ofText "doc.json") tree (pair (endpointWith (nested 1)) (endpointWith (nested 1))) := by
  have fits := fits_pair_nested (Nat.zero_le 195) (Nat.zero_le 195)
  obtain ⟨tree, stored, wf, -⟩ :=
    exists_store wellFormed_usersTree ⟨_, holds_usersTree.1⟩ fits.firstSurrogates_eq_none
  exact ⟨tree, wf, reads_of_stored (Option.some_ne_none _) fits stored⟩

/-- The first of two requests has been granted before the second one reads. -/
theorem exists_first_edit (v : Json) : ∃ tree tree₁ : FileTree, tree.WellFormed ∧
    Reads (.ofText "doc.json") tree (pair (endpointWith (nested 1)) (endpointWith (nested 1))) ∧
    store (.ofText "doc.json")
        ((pairEdits v false).apply (pair (endpointWith (nested 1)) (endpointWith (nested 1)))) tree =
      (.ok (), tree₁) ∧ tree₁.WellFormed ∧
    Reads (.ofText "doc.json") tree₁ (pair (endpointWith (nested 2)) (endpointWith (nested 1))) := by
  obtain ⟨tree, wf, reads⟩ := exists_pairTree
  have fits := fits_pair_nested (m := 1) (by decide) (Nat.zero_le 195)
  obtain ⟨tree₁, stored, wf₁, -⟩ := exists_store wf ⟨_, reads⟩ fits.firstSurrogates_eq_none
  exact ⟨tree, tree₁, wf, reads, stored, wf₁, reads_of_stored (Option.some_ne_none _) fits stored⟩

theorem endpointWith_inj {v w : Json} (h : endpointWith v = endpointWith w) : v = w :=
  (RequestBody.mk.inj (Option.some.inj (congrArg Endpoint.requestBody h))).2.2.2.1

theorem inside_pairEdits (v : Json) (e₀ e₁ : Endpoint) (x : Bool) :
    0 ≤ (pairEdits v x).index ∧ (pairEdits v x).index < (pair e₀ e₁).endpoints.length := by
  cases x <;> simp [pairEdits, pair]

/-- Both requests are granted one after the other, if the texts of the second one are scalar. -/
theorem exists_apart (fits : v.Fits ints (·.isScalar = true) floats room) :
    ∃ tree tree₁ tree₂ : FileTree, tree.WellFormed ∧
      Reads (.ofText "doc.json") tree (pair (endpointWith (nested 1)) (endpointWith (nested 1))) ∧
      store (.ofText "doc.json") (pair (endpointWith (nested 2)) (endpointWith v)) tree₁ =
        (.ok (), tree₂) ∧
      ((Session.start tree).run (.ofText "doc.json") (pairEdits v)
        [false, false, true, true]).tree = tree₂ ∧
      ((Session.start tree).run (.ofText "doc.json") (pairEdits v)
        [false, false, true, true]).Granted := by
  obtain ⟨tree, tree₁, wf, reads, stored, wf₁, reads₁⟩ := exists_first_edit v
  have second : ((endpointWith v).toJson false).Fits (fun _ => True) (·.isScalar = true) floats
      (max 4 (room + 3)) :=
    (fits_endpointWith_of_fits fits).mono (fun _ _ => trivial) (fun _ h => h) (fun _ h => h)
      (le_max_right 4 _)
  have first : ((endpointWith (nested 2)).toJson false).Fits (fun _ => True) (·.isScalar = true)
      floats (max 4 (room + 3)) :=
    (fits_endpointWith trivial 1).mono (fun _ h => h) (fun _ h => h) (fun _ h => h.elim)
      (le_max_left 4 _)
  obtain ⟨tree₂, stored₁, -⟩ :=
    exists_store wf₁ ⟨_, reads₁⟩ (fits_pair trivial first second).firstSurrogates_eq_none
  exact ⟨tree, tree₁, tree₂, wf, reads, stored₁,
    run_apart reads (inside_pairEdits v _ _ false) stored reads₁ (inside_pairEdits v _ _ true)
      stored₁⟩

end

/-- A half. -/
def half : Binary64 := .finite false (2 ^ 52) (-53)

/-- The endpoints of both edits are within the limits, where one of them has a fraction. -/
theorem fits_pairEdits_half (x : Bool) :
    ((pairEdits (.float half) x).endpoint.toJson false).Fits Dialect.document.Takes
      (·.isScalar = true) (fun x => x.IsCanonical ∧ x.IsFinite) 4 := by
  have canonical : half.IsCanonical ∧ half.IsFinite :=
    ⟨⟨by decide, by decide, by decide, fun _ => by decide⟩, trivial⟩
  cases x with
  | false =>
      exact (fits_endpointWith (by decide) 1).mono (fun _ h => h) (fun _ h => h) (fun _ h => h.elim)
        le_rfl
  | true =>
      have fraction : (Json.float half).Fits Dialect.document.Takes (·.isScalar = true)
          (fun x => x.IsCanonical ∧ x.IsFinite) 1 := .float canonical
      exact fits_endpointWith_of_fits fraction

theorem bodyValue?_pairRequests (x : Bool) : (pairRequests (.float half) x).bodyValue? =
    .ok (some ((pairEdits (.float half) x).endpoint.toJson false)) :=
  bodyValue?_print _ _
    ((fits_pairEdits_half x).mono (fun _ h => (Nat.le_add_right _ _).trans h) (fun _ h => h)
      (fun _ h => h) le_rfl)
    (by decide) rfl

theorem call_pairRequests (x : Bool) : (pairRequests (.float half) x).call =
    .ok (.update (pairEdits (.float half) x).index (pairEdits (.float half) x).endpoint) := by
  refine Request.call_putEndpoint ?_ (bodyValue?_pairRequests x) ?_
  · cases x <;> decide
  · cases x with
    | false => exact decode_endpointWith (by decide)
    | true => exact decode_endpointWith_of_free rfl rfl

theorem modest_pairRequests (x : Bool) : (pairRequests (.float half) x).Modest 2 := by
  constructor
  · intro index e v _ body
    rw [bodyValue?_pairRequests] at body
    cases body
    exact (fits_pairEdits_half x).mono (fun _ h => h) (fun _ _ => trivial) (fun _ _ => trivial)
      (by decide)
  · intro d v whole
    rw [call_pairRequests] at whole
    cases whole
  · intro d whole
    rw [call_pairRequests] at whole
    cases whole

/-- Two requests, one of them with a half as an example, are granted one after the other, and the
file holds both endpoints. -/
theorem edits_held_pair : ∃ tree : FileTree,
    Reads (.ofText "doc.json") tree (pair (endpointWith (nested 1)) (endpointWith (nested 1))) ∧
    (∀ x, (pairRequests (.float half) x).call =
      .ok (.update (pairEdits (.float half) x).index (pairEdits (.float half) x).endpoint)) ∧
    (∀ x, (pairRequests (.float half) x).Modest 2) ∧
    ((Session.start tree).run (.ofText "doc.json") (pairEdits (.float half))
      [false, false, true, true]).Granted ∧
    ((Session.start tree).run (.ofText "doc.json") (pairEdits (.float half))
      [false, false, true, true]).HoldsBoth (.ofText "doc.json") (pairEdits (.float half)) := by
  have fits : (Json.float half).Fits Dialect.document.Takes (·.isScalar = true) (· = half) 0 :=
    .float rfl
  obtain ⟨tree, _, _, _, reads, -, -, granted⟩ := exists_apart fits
  have distinct : (pairEdits (.float half) false).index ≠ (pairEdits (.float half) true).index :=
    Int.zero_ne_one
  obtain ⟨apart, -, finite⟩ := edits_held reads call_pairRequests modest_pairRequests distinct
    (inside_pairEdits _ _ _) (by decide) granted
  obtain ⟨d', reads', first, second, -⟩ := apart false rfl
  have kept (x : Bool) : (pairEdits (.float half) x).endpoint.kept =
      (pairEdits (.float half) x).endpoint :=
    finite _ ((fits_pairEdits_half x).floatsIn.mono fun _ h => h.2)
  rw [kept] at first second
  exact ⟨tree, reads, call_pairRequests, modest_pairRequests, granted, d', reads',
    Bool.forall_bool.mpr ⟨first, second⟩⟩

/-! ### Edits That Are Lost -/

/-- **Edits are held**, if their turns and their endpoints are of some kind. -/
def EditsHeld (order : List Bool → Prop) (kind : Endpoint → Prop) : Prop :=
  ∀ (file : FilePath) (tree : FileTree) (d : Documentation) (edits : Bool → Edit)
    (turns : List Bool), tree.WellFormed → Reads file tree d →
    (edits false).index ≠ (edits true).index →
    (∀ x, 0 ≤ (edits x).index ∧ (edits x).index < d.endpoints.length) →
    (∀ x, ∃ v, Endpoint.decode .request v = .ok (edits x).endpoint) →
    (∀ x, turns.count x = 2) → order turns → (∀ x, kind (edits x).endpoint) →
    ((Session.start tree).run file edits turns).Granted →
    ((Session.start tree).run file edits turns).HoldsBoth file edits

/-- Endpoints within limits, with some room. -/
def InLimits (ints : Int → Prop) (floats : Binary64 → Prop) (room : Nat) (e : Endpoint) : Prop :=
  Within ints floats room (e.toJson false)

/-- A file is read as one documentation. -/
theorem Reads.unique (h : Reads file tree d) (h' : Reads file tree d') : d = d' :=
  Except.ok.inj (congrArg Prod.fst (h.load_eq.symm.trans h'.load_eq))

theorem inLimits_nested {ints : Int → Prop} {floats : Binary64 → Prop} {n room : Nat} (one : ints 1)
    (enough : n + 3 ≤ room) : InLimits ints floats room (endpointWith (nested (n + 1))) :=
  (fits_endpointWith one n).mono (fun _ h => h) (fun _ _ => trivial) (fun _ h => h.elim) enough

/-- An edit is lost if both requests read before they write. -/
theorem not_editsHeld_overlapping : ¬EditsHeld (fun _ => True)
    (InLimits Dialect.document.Takes (fun _ => False) (Dialect.document.maxDepth - 2)) := by
  intro claim
  obtain ⟨tree, tree₁, wf, reads, stored, wf₁, reads₁⟩ := exists_first_edit (nested 2)
  have fits := fits_pair_nested (n := 1) (Nat.zero_le 195) (by decide)
  obtain ⟨tree₂, stored₁, -⟩ := exists_store wf₁ ⟨_, reads₁⟩ fits.firstSurrogates_eq_none
  obtain ⟨same, granted⟩ :=
    run_overlapping reads (inside_pairEdits (nested 2) _ _) stored stored₁
  have valid : ∃ v, Endpoint.decode .request v = .ok (endpointWith (nested 2)) :=
    ⟨_, decode_endpointWith (by decide)⟩
  have kind : InLimits Dialect.document.Takes (fun _ => False) (Dialect.document.maxDepth - 2)
      (endpointWith (nested 2)) := inLimits_nested (by decide) (by decide)
  obtain ⟨d, held, both⟩ := claim _ tree _ (pairEdits (nested 2)) _ wf reads Int.zero_ne_one
    (inside_pairEdits _ _ _) (Bool.forall_bool.mpr ⟨valid, valid⟩) (by decide) trivial
    (Bool.forall_bool.mpr ⟨kind, kind⟩) granted
  rw [same] at held
  obtain rfl := held.unique (reads_of_stored (Option.some_ne_none _) fits stored₁)
  have old : nested 1 = nested 2 := endpointWith_inj (Option.some.inj (both false))
  have depth := congrArg Json.depth old
  rw [depth_nested, depth_nested] at depth
  exact absurd depth (by decide)

/-- An infinite number is not held, even if the requests take their turns one after the other. -/
theorem not_editsHeld_infinite : ¬EditsHeld (· = [false, false, true, true])
    (InLimits Dialect.document.Takes (fun _ => True) (Dialect.document.maxDepth - 2)) := by
  intro claim
  have fits : (Json.float (.infinite false)).Fits Dialect.document.Takes (·.isScalar = true)
      (· = .infinite false) 1 := .float rfl
  obtain ⟨tree, tree₁, tree₂, wf, reads, stored, same, granted⟩ := exists_apart fits
  have valid : Endpoint.decode .request ((endpointWith (.float (.infinite false))).toJson false) =
      .ok (endpointWith (.float (.infinite false))) :=
    decode_endpointWith_of_free rfl rfl
  have second := fits_endpointWith_of_fits fits
  have kind : InLimits Dialect.document.Takes (fun _ => True) (Dialect.document.maxDepth - 2)
      (endpointWith (.float (.infinite false))) :=
    second.mono (fun _ h => h) (fun _ _ => trivial) (fun _ _ => trivial) (by decide)
  obtain ⟨d, held, both⟩ := claim _ tree _ (pairEdits (.float (.infinite false))) _ wf reads
    Int.zero_ne_one (inside_pairEdits _ _ _)
    (Bool.forall_bool.mpr ⟨⟨_, decode_endpointWith (by decide)⟩, ⟨_, valid⟩⟩) (by decide) rfl
    (Bool.forall_bool.mpr ⟨inLimits_nested (by decide) (by decide), kind⟩) granted
  have within : Bounded Dialect.document.Takes 198
      ((endpointWith (.float (.infinite false))).toJson false) :=
    second.mono (fun _ h => h) (fun _ _ => trivial) (fun _ h => h ▸ trivial) (by decide)
  have bounded :
      IsBounded (pair (endpointWith (nested 2)) (endpointWith (.float (.infinite false)))) :=
    ⟨List.forall_mem_cons.mpr
      ⟨inLimits_nested (by decide) (by decide), List.forall_mem_singleton.mpr within⟩, by decide⟩
  obtain ⟨d', reads', kept⟩ := exists_reads_of_stored bounded stored
  rw [same] at held
  obtain rfl := held.unique reads'
  have there := both true
  rw [kept] at there
  cases (endpointWith_inj (Option.some.inj there) : Json.null = .float (.infinite false))

/-- An endpoint after which the file is not read is not held. -/
theorem not_editsHeld_of_beyond {v : Json} {ints : Int → Prop} {room : Nat} {kind : Endpoint → Prop}
    (fits : v.Fits ints (·.isScalar = true) (fun _ => False) room)
    (valid : ∃ w, Endpoint.decode .request w = .ok (endpointWith v))
    (beyond : ¬(pair (endpointWith (nested 2)) (endpointWith v)).IsReadable)
    (first : kind (endpointWith (nested 2))) (second : kind (endpointWith v)) :
    ¬EditsHeld (· = [false, false, true, true]) kind := by
  intro claim
  obtain ⟨tree, tree₁, tree₂, wf, reads, stored, same, granted⟩ := exists_apart fits
  obtain ⟨d, held, -⟩ := claim _ tree _ (pairEdits v) _ wf reads Int.zero_ne_one
    (inside_pairEdits _ _ _) (Bool.forall_bool.mpr ⟨⟨_, decode_endpointWith (by decide)⟩, valid⟩)
    (by decide) rfl (Bool.forall_bool.mpr ⟨first, second⟩) granted
  have widened : ((endpointWith v).toJson false).Fits (fun _ => True) (·.isScalar = true)
      (fun _ => False) (max 4 (room + 3)) :=
    (fits_endpointWith_of_fits fits).mono (fun _ _ => trivial) (fun _ h => h) (fun _ h => h)
      (le_max_right 4 _)
  have whole : ((pair (endpointWith (nested 2)) (endpointWith v)).toJson false).Fits
      (fun _ => True) (·.isScalar = true) (fun _ => False) (max 4 (room + 3) + 2) :=
    fits_pair trivial ((fits_endpointWith trivial 1).mono (fun _ h => h) (fun _ h => h)
      (fun _ h => h) (le_max_left 4 _)) widened
  have unread := (load_of_stored stored (whole.mono (fun _ h => h) (fun _ _ => trivial)
    (fun _ h => h) le_rfl)).2 beyond
  rw [← same, held.load_eq] at unread
  cases congrArg Prod.fst unread

/-- An endpoint that needs more room than two brackets leave is not held. -/
theorem not_editsHeld_deep : ¬EditsHeld (· = [false, false, true, true])
    (InLimits Dialect.document.Takes (fun _ => False) Dialect.document.maxDepth) := by
  refine not_editsHeld_of_beyond (fits_nested (by decide : Dialect.document.Takes 1) 197)
    ⟨_, decode_endpointWith (by decide)⟩ (fun readable => ?_)
    (inLimits_nested (by decide) (by decide)) (inLimits_nested (by decide) (by decide))
  have depth : ((pair (endpointWith (nested 2)) (endpointWith (nested 197))).toJson false).depth =
      201 := by
    simp [pair, Documentation.toJson, Info.toJson, record, isNull, ofText?, depth, depthOfMembers,
      depthOfItems, depth_endpointWith]
  exact absurd (depth ▸ Fits.depth_le readable) (by decide)

/-- A negative integer whose digits alone are as many as may stand in a file is not held. -/
theorem not_editsHeld_long : ¬EditsHeld (· = [false, false, true, true])
    (InLimits Dialect.fragment.Takes (fun _ => False) (Dialect.document.maxDepth - 2)) := by
  have taken : Dialect.fragment.Takes (-10 ^ 4299) :=
    (Dialect.fragment_takes_neg_pow 4299).mpr (by decide)
  have fits : (Json.int (-10 ^ 4299)).Fits Dialect.fragment.Takes (·.isScalar = true)
      (fun _ => False) 1 := .int taken
  refine not_editsHeld_of_beyond fits ⟨_, decode_endpointWith_of_free rfl rfl⟩ (fun readable => ?_)
    (inLimits_nested (by decide) (by decide))
    ((fits_endpointWith_of_fits fits).mono (fun _ h => h) (fun _ _ => trivial) (fun _ h => h)
      (by decide))
  exact absurd ((Dialect.document_takes_neg_pow 4299).mp (takes_of_isReadable readable)) (by decide)

/-- **Edits are lost.** Of two edits that were granted, one is lost if both requests read before
they write. Even if the requests take their turns one after the other, an edit of an infinite number
is not held, and neither is one that is nested too deep for the place where it stands in the file, or
one of a negative integer whose digits and sign are too many for the reader of the file. -/
theorem not_edits_held :
    ¬EditsHeld (fun _ => True)
      (InLimits Dialect.document.Takes (fun _ => False) (Dialect.document.maxDepth - 2)) ∧
    ¬EditsHeld (· = [false, false, true, true])
      (InLimits Dialect.document.Takes (fun _ => True) (Dialect.document.maxDepth - 2)) ∧
    ¬EditsHeld (· = [false, false, true, true])
      (InLimits Dialect.document.Takes (fun _ => False) Dialect.document.maxDepth) ∧
    ¬EditsHeld (· = [false, false, true, true])
      (InLimits Dialect.fragment.Takes (fun _ => False) (Dialect.document.maxDepth - 2)) :=
  ⟨not_editsHeld_overlapping, not_editsHeld_infinite, not_editsHeld_deep, not_editsHeld_long⟩

end Editor

end RouteDocs
