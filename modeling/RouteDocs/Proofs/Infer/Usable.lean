import RouteDocs.Infer.Endpoint
import RouteDocs.Proofs.Infer.Annotation
import RouteDocs.Proofs.Infer.Answers
import RouteDocs.Proofs.Json.Stops

/-!
# Which Annotations Can Be Used

An annotation can be used unless the braces in its text hold JSON beyond the limits of the reader or
of the documentation. One annotation that cannot be used costs a handler all of its answers.

## Main Definitions

* `Response.IsBeyondLimits`: texts of JSON that cannot be used
* `Response.IsUsable`: the texts of annotations that can be used
* `Response.IsModest`: texts that open few brackets and have few digits in a row

## Main Statements

* `Response.exists_ofNote_iff`: **an annotation gives an answer exactly if its text can be used**
* `Response.ofNote_of_malformed`: an annotation of malformed JSON keeps its whole text
* `Response.IsModest.isUsable`: modest texts can be used
* `Response.usable_annotations`: **what annotations cost the answers of a handler**
* `Response.ofNote_withNumber`: an example with an integer of too many digits cannot be used

## Design Notes

JSON that cannot be read is told from JSON that is beyond a limit by the fault of the reader, as the
inference of answers does.
-/

namespace RouteDocs

namespace Response

open Pattern

variable {status text t : Text}

/-! ### JSON beyond the Limits -/

/-- Whether a fault means that a limit was reached. -/
def isLimit : Json.ReadError.Cause → Bool
  | .tooManyDigits _ | .tooDeep => true
  | _ => false

/-- **Texts of JSON that cannot be used**: the reader stops at a limit, or the value is nested
deeper than the documentation allows. -/
inductive IsBeyondLimits (t : Text) : Prop
  /-- The reader stops at a limit. -/
  | stopped (e : Json.ReadError) (read : Json.read .fragment t = .error e)
      (limit : isLimit e.cause = true)
  /-- The value is nested too deep. -/
  | refused (v : Json) (read : Json.read .fragment t = .ok v)
      (deep : Decoder.maxFreeDepth < v.levels)

/-- **The texts of annotations that can be used**: their braces, if they have some, hold nothing
beyond the limits. -/
def IsUsable (text : Text) : Prop :=
  ∀ m, inlineJson.find? (noteText text) = some m → ¬ IsBeyondLimits m.text

section

variable {m : Match} {e : Json.ReadError} {v : Json}

theorem isBeyondLimits_iff_of_error (read : Json.read .fragment t = .error e) :
    IsBeyondLimits t ↔ isLimit e.cause = true := by
  refine ⟨fun h => ?_, .stopped e read⟩
  cases h with
  | stopped e' read' limit =>
      cases read.symm.trans read'
      exact limit
  | refused v read' => cases read.symm.trans read'

theorem isBeyondLimits_iff_of_ok (read : Json.read .fragment t = .ok v) :
    IsBeyondLimits t ↔ Decoder.maxFreeDepth < v.levels := by
  refine ⟨fun h => ?_, .refused v read⟩
  cases h with
  | stopped e read' => cases read.symm.trans read'
  | refused v' read' deep =>
      cases read.symm.trans read'
      exact deep

/-! ### One Annotation -/

/-- An annotation of malformed JSON keeps its whole text as the description. -/
theorem ofNote_of_malformed (found : inlineJson.find? (noteText text) = some m)
    (read : Json.read .fragment m.text = .error e) (malformed : isLimit e.cause = false) :
    ofNote status text = .ok ⟨status, noteText text, .null, [], []⟩ := by
  obtain ⟨cause, position⟩ := e
  unfold ofNote
  simp only [found, read]
  cases cause with
  | tooManyDigits | tooDeep => cases malformed
  | _ => rfl

/-- Where the reader stops at a limit, an annotation fails. -/
theorem exists_ofNote_iff_of_error (found : inlineJson.find? (noteText text) = some m)
    (read : Json.read .fragment m.text = .error e) :
    (∃ r, ofNote status text = .ok r) ↔ isLimit e.cause = false := by
  refine ⟨fun ⟨r, given⟩ => ?_, fun malformed => ⟨_, ofNote_of_malformed found read malformed⟩⟩
  obtain ⟨cause, position⟩ := e
  unfold ofNote at given
  simp only [found, read] at given
  cases cause with
  | tooManyDigits | tooDeep => cases given
  | _ => rfl

/-- Where the reader gives a value, an annotation depends on its nesting. -/
theorem exists_ofNote_iff_of_ok (found : inlineJson.find? (noteText text) = some m)
    (read : Json.read .fragment m.text = .ok v) :
    (∃ r, ofNote status text = .ok r) ↔ v.levels ≤ Decoder.maxFreeDepth := by
  unfold ofNote
  simp only [found, read, Decoder.free_value,
    Decoder.depthIssues_eq_nil_iff v Decoder.maxFreeDepth]
  by_cases shallow : v.levels ≤ Decoder.maxFreeDepth
  · rw [if_pos shallow]
    exact iff_of_true ⟨_, rfl⟩ shallow
  · rw [if_neg shallow]
    refine iff_of_false ?_ shallow
    rintro ⟨r, given⟩
    cases given

end

/-- **An annotation gives an answer exactly if its text can be used.** -/
theorem exists_ofNote_iff : (∃ r, ofNote status text = .ok r) ↔ IsUsable text := by
  cases found : inlineJson.find? (noteText text) with
  | none =>
      refine iff_of_true ⟨⟨status, noteText text, .null, [], []⟩, ?_⟩ fun m given => ?_
      · unfold ofNote
        simp only [found]
      · rw [found] at given
        cases given
  | some m =>
      have usable : IsUsable text ↔ ¬ IsBeyondLimits m.text :=
        ⟨fun h => h m found, fun h m' same => Option.some.inj (found.symm.trans same) ▸ h⟩
      rw [usable]
      cases read : Json.read .fragment m.text with
      | error e =>
          rw [exists_ofNote_iff_of_error found read, isBeyondLimits_iff_of_error read,
            Bool.not_eq_true]
      | ok v => rw [exists_ofNote_iff_of_ok found read, isBeyondLimits_iff_of_ok read, not_lt]

/-! ### Modest Texts -/

/-- **Texts that open few brackets and have few digits in a row.** -/
structure IsModest (t : Text) : Prop where
  /-- Fewer brackets are opened than a value of the documentation may have inside one another. -/
  brackets : Json.openings t < Decoder.maxFreeDepth
  /-- No more digits stand in a row than an integer may have. -/
  digits : ∀ ds, ds <:+: t → (∀ c ∈ ds, c.isAsciiDigit = true) → ds.length ≤ Json.maxDigits

theorem IsModest.of_part {s : Text} (h : IsModest t) (inside : s <:+: t) : IsModest s where
  brackets := inside.sublist.countP_le.trans_lt h.brackets
  digits ds within := h.digits ds (within.trans inside)

mutual

/-- No more values contain one another than brackets do, but for the innermost one. -/
theorem levels_le : ∀ v : Json, v.levels ≤ v.depth + 1
  | .null | .bool _ | .int _ | .float _ | .str _ => le_rfl
  | .arr vs => Nat.succ_le_succ (levelsOfItems_le vs)
  | .obj ms => Nat.succ_le_succ (levelsOfMembers_le ms)

theorem levelsOfItems_le : ∀ vs : List Json, Json.levelsOfItems vs ≤ Json.depthOfItems vs + 1
  | [] => Nat.zero_le _
  | v :: more => by
    have first := levels_le v
    have others := levelsOfItems_le more
    rw [Json.levelsOfItems, Json.depthOfItems]
    omega

theorem levelsOfMembers_le : ∀ ms : List (Text × Json),
    Json.levelsOfMembers ms ≤ Json.depthOfMembers ms + 1
  | [] => Nat.zero_le _
  | (_, v) :: more => by
    have first := levels_le v
    have others := levelsOfMembers_le more
    rw [Json.levelsOfMembers, Json.depthOfMembers]
    omega

end

/-- JSON within the limits of a modest text can be used. -/
theorem IsModest.not_isBeyondLimits (h : IsModest t) : ¬ IsBeyondLimits t := by
  intro beyond
  cases beyond with
  | stopped e read limit =>
      have excess := Json.excess_of_read read
      obtain ⟨cause, position⟩ := e
      cases cause with
      | tooDeep =>
          have many : Json.Dialect.fragment.maxDepth < 0 + Json.openings t := excess
          have few := h.brackets
          have larger : Decoder.maxFreeDepth ≤ Json.Dialect.fragment.maxDepth := by decide
          omega
      | tooManyDigits count =>
          obtain ⟨many, ds, inside, digits, length⟩ := excess
          -- a reader of fragments does not count the sign
          have length : count ≤ ds.length := length
          exact absurd (length.trans (h.digits ds inside digits)) (Nat.not_le_of_lt many)
      | _ => cases limit
  | refused v read deep =>
      have depth := Json.depth_le_openings read
      have levels := levels_le v
      have few := h.brackets
      omega

/-- The text of an annotation stands within it. -/
theorem noteText_within (text : Text) : noteText text <:+: text := by
  have strip : Text.strip text <:+: text := Text.trim_within _ text
  unfold noteText
  dsimp only
  split
  · exact ((Text.trimRight_begins _ _).trans (List.take_prefix _ _)).isInfix.trans strip
  · exact strip

/-- **Modest texts can be used.** -/
theorem IsModest.isUsable (h : IsModest text) : IsUsable text := by
  intro m found
  have inside : m.text <:+: noteText text := by
    rw [Match.text, Cursor.textUntil, (find?_sound found).1]
    exact (List.take_prefix _ _).isInfix.trans (List.drop_suffix _ _).isInfix
  exact (h.of_part (inside.trans (noteText_within text))).not_isBeyondLimits

/-! ### The Answers of a Handler -/

/-- The methods that have usual answers. -/
def usualMethods : List Text := ["GET", "POST", "PUT", "PATCH", "DELETE"]

/-- There are answers before annotations. -/
theorem base_ne_nil {ctx : RouteContext} (usual : ctx.method ∈ usualMethods) : base ctx ≠ [] := by
  unfold base
  split
  · exact List.cons_ne_nil _ _
  · have all : (usualMethods.all fun m => !(defaults (Verb.ofName? m)).isEmpty) = true := by decide
    have some := List.all_eq_true.mp all ctx.method usual
    rw [Bool.not_eq_true'] at some
    exact List.isEmpty_eq_false_iff.mp some

/-- What is inferred is not empty. -/
theorem infer_ne_nil {ctx : RouteContext} {found : Assoc Response}
    (usual : ctx.method ∈ usualMethods) (inferred : infer ctx = .ok found) : found ≠ [] := by
  obtain ⟨changes, -, rfl⟩ := Json.map_eq_ok.mp inferred
  have keys : ((base ctx).update changes).keys ≠ [] := by
    rw [Assoc.keys_update]
    refine List.append_ne_nil_of_left_ne_nil ?_ _
    exact List.map_eq_nil_iff.not.mpr (base_ne_nil usual)
  exact List.map_eq_nil_iff.not.mpr fun none => keys (by rw [none]; rfl)

/-- **A handler has answers exactly if all of its annotations can be used.** -/
theorem responses_ne_nil_iff {route : ParsedRoute} {login : Option Text}
    (usual : route.method ∈ usualMethods) :
    (route.endpoint login).responses ≠ [] ↔
      ∀ n ∈ notes (route.context login).source, IsUsable n.2 := by
  have usable : (∀ n ∈ notes (route.context login).source, IsUsable n.2) ↔
      ∃ changes, annotated (route.context login).source = .ok changes := by
    rw [exists_annotated_iff]
    exact forall₂_congr fun n _ => exists_ofNote_iff.symm
  rw [usable]
  unfold ParsedRoute.endpoint
  dsimp only
  cases inferred : infer (route.context login) with
  | ok found =>
      obtain ⟨changes, read, -⟩ := Json.map_eq_ok.mp inferred
      exact iff_of_true (infer_ne_nil usual inferred) ⟨changes, read⟩
  | error e =>
      refine iff_of_false (fun h => h rfl) ?_
      rintro ⟨changes, read⟩
      rw [infer, read] at inferred
      cases inferred

/-- **What annotations cost the answers of a handler.** An annotation gives an answer unless the
braces of its text hold JSON beyond a limit. Malformed JSON leaves the whole text as the
description, and texts that open few brackets and have few digits in a row can always be used. A
handler of a method with usual answers has some answer exactly if all of its annotations can be
used. -/
theorem usable_annotations (status text : Text) (route : ParsedRoute) (login : Option Text) :
    ((∃ r, ofNote status text = .ok r) ↔ IsUsable text) ∧
    (∀ m e, inlineJson.find? (noteText text) = some m → Json.read .fragment m.text = .error e →
      isLimit e.cause = false → ofNote status text = .ok ⟨status, noteText text, .null, [], []⟩) ∧
    (IsModest text → IsUsable text) ∧
    (route.method ∈ usualMethods →
      ((route.endpoint login).responses ≠ [] ↔
        ∀ n ∈ notes (route.context login).source, IsUsable n.2)) := by
  refine ⟨exists_ofNote_iff, ?_, fun modest => modest.isUsable, fun usual => ?_⟩
  · intro m e found read malformed
    exact ofNote_of_malformed found read malformed
  · exact responses_ne_nil_iff usual

/-- A handler whose only annotation is of malformed JSON. -/
def ofTask : ParsedRoute where
  method := "DELETE"
  url := "/api/tasks/{id}"
  file := "tasks/[id]/route.ts"
  content := Text.ofString
    "// @response 400 Bad \x7bid: 7\x7d\nexport async function DELETE() \x7b\x7d\n"

theorem usable_annotations_ofTask : IsModest "Bad \x7bid: 7\x7d" ∧ ofTask.method ∈ usualMethods ∧
    (ofTask.endpoint none).responses ≠ [] := by
  have modest : IsModest "Bad \x7bid: 7\x7d" :=
    ⟨by decide, fun ds within _ => within.length_le.trans (by decide)⟩
  have usual : ofTask.method ∈ usualMethods := by decide
  obtain ⟨-, -, usable, answered⟩ := usable_annotations "400" "Bad \x7bid: 7\x7d" ofTask none
  refine ⟨modest, usual, (answered usual).mpr fun n mem => ?_⟩
  have noted : notes (ofTask.context none).source =
      [(("400" : Text), ("Bad \x7bid: 7\x7d" : Text))] := by
    decide +kernel
  rw [noted, List.mem_singleton] at mem
  rw [mem]
  exact usable modest

/-! ### Integers with Too Many Digits -/

/-- The text of an annotation whose example holds a number. -/
def withNumber (w : Text) : Text := "Bad " ++ Json.numbered w

/-- **An example with an integer of too many digits cannot be used.** -/
theorem ofNote_withNumber {w : Text} (hw : Json.IsWhole w) (many : Json.maxDigits < w.length) :
    ofNote status (withNumber w) = .error (.tooManyDigits w.length) := by
  have whole : noteText (withNumber w) = withNumber w := by
    have last : withNumber w = (("Bad \x7b\"n\": " : Text) ++ w) ++ [('\x7d' : CodePoint)] := by
      rw [withNumber, Json.numbered, List.append_assoc]
      rfl
    refine noteText_eq_self (fun c hc => ?_) last
    cases hc
    rfl
  have single : ('\n' : CodePoint) ∉ ("\"n\": " ++ w : Text) := by
    intro mem
    rcases List.mem_append.mp mem with mem | mem
    · revert mem
      decide
    · cases hw.digits _ mem
  have same : ('\x7b' : CodePoint) :: (("\"n\": " ++ w) ++ [('\x7d' : CodePoint)]) =
      Json.numbered w := by
    rw [List.append_assoc]
    rfl
  have flat : ∀ c ∈ ("Bad " : Text), isFlat c = true := List.all_eq_true.mp rfl
  obtain ⟨m, found, json, -⟩ := exists_find?_braces flat single
  rw [same] at found json
  have found' : inlineJson.find? (withNumber w) = some m := found
  obtain ⟨e, read, cause⟩ := Json.read_numbered hw many
  unfold ofNote
  simp only [whole, found', json, read, cause]

/-- An integer with one digit more than an integer may have. -/
def manyOnes : Text := List.replicate (Json.maxDigits + 1) '1'

/-- **An annotation that costs a handler its answers**: its example is JSON, but the reader refuses
the integer in it, and the fault is not taken for malformed JSON. -/
theorem ofNote_manyOnes :
    ofNote "400" (withNumber manyOnes) = .error (.tooManyDigits (Json.maxDigits + 1)) ∧
      ¬ ∃ r, ofNote "400" (withNumber manyOnes) = .ok r := by
  have whole : Json.IsWhole manyOnes := by
    refine ⟨List.cons_ne_nil _ _, fun c hc => ?_, fun zero => ?_⟩
    · rw [List.eq_of_mem_replicate hc]
      rfl
    · cases zero
  have size : manyOnes.length = Json.maxDigits + 1 := List.length_replicate
  have fault : ofNote "400" (withNumber manyOnes) =
      .error (.tooManyDigits (Json.maxDigits + 1)) := by
    rw [ofNote_withNumber whole (by omega), size]
  refine ⟨fault, ?_⟩
  rintro ⟨r, given⟩
  rw [fault] at given
  cases given

end Response

end RouteDocs
