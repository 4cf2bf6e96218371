import RouteDocs.Proofs.Infer.Note
import RouteDocs.Proofs.Json.Printed

/-!
# Annotated Responses Are Read Back

A comment can annotate the answers of a handler, one on each line, with a status code, a description
and an example in JSON. What was written in this way is found again.

## Main Definitions

* `Json.levels`: how many values contain one another at most
* `Response.Annotation`: what an annotation says, and `Annotation.line`, how it is written
* `Annotation.answer`: the answer that it stands for

## Main Statements

* `Decoder.depthIssues_eq_nil_iff`: which values are accepted as free-form values
* `Annotation.exists_find?_inlineJson`: the JSON of an annotation is what stands between its outer
  braces
* `Annotation.matchesLine_line`: the line of an annotation has one match
* `Annotation.annotated_source_iff`: **annotations are read back if their examples are not nested
  too deep**

## Design Notes

The texts of an example may hold braces, quotation marks and ends of comments: the description has
no braces, so the first brace of a line opens the example, and the last one closes it. The reader of
JSON accepts a deeper nesting than the values of documentation do.
-/

namespace RouteDocs

/-! ### Nesting of Free-Form Values -/

namespace Json

mutual

/-- How many values contain one another at most, the innermost one included. -/
def levels : Json → Nat
  | .arr vs => levelsOfItems vs + 1
  | .obj ms => levelsOfMembers ms + 1
  | _ => 1

/-- How many values contain one another in an item at most. -/
def levelsOfItems : List Json → Nat
  | [] => 0
  | v :: more => max (levels v) (levelsOfItems more)

/-- How many values contain one another in a member at most. -/
def levelsOfMembers : List (Text × Json) → Nat
  | [] => 0
  | (_, v) :: more => max (levels v) (levelsOfMembers more)

end

theorem levels_pos (v : Json) : 0 < v.levels := by
  cases v <;> simp [levels]

end Json

namespace Decoder

mutual

/-- **Which values are accepted as free-form values**: those that are not nested too deep. -/
theorem depthIssues_eq_nil_iff : ∀ (v : Json) (n : Nat), depthIssues n v = [] ↔ v.levels ≤ n
  | v, 0 => by simpa [depthIssues] using Nat.ne_of_gt v.levels_pos
  | .null, _ + 1 | .bool _, _ + 1 | .int _, _ + 1 | .float _, _ + 1 | .str _, _ + 1 => by
    simp [depthIssues, Json.levels]
  | .arr vs, n + 1 => by
    simp [depthIssues, Json.levels, depthIssuesOfItems_eq_nil_iff vs n 0]
  | .obj ms, n + 1 => by
    simp [depthIssues, Json.levels, depthIssuesOfMembers_eq_nil_iff ms n]

theorem depthIssuesOfItems_eq_nil_iff : ∀ (vs : List Json) (n i : Nat),
    depthIssuesOfItems n i vs = [] ↔ Json.levelsOfItems vs ≤ n
  | [], _, _ => by simp [depthIssuesOfItems, Json.levelsOfItems]
  | v :: more, n, i => by
    simp [depthIssuesOfItems, Json.levelsOfItems, depthIssues_eq_nil_iff v n,
      depthIssuesOfItems_eq_nil_iff more n (i + 1)]

theorem depthIssuesOfMembers_eq_nil_iff : ∀ (ms : List (Text × Json)) (n : Nat),
    depthIssuesOfMembers n ms = [] ↔ Json.levelsOfMembers ms ≤ n
  | [], _ => by simp [depthIssuesOfMembers, Json.levelsOfMembers]
  | (k, v) :: more, n => by
    simp [depthIssuesOfMembers, Json.levelsOfMembers, depthIssues_eq_nil_iff v n,
      depthIssuesOfMembers_eq_nil_iff more n]

end

/-- A free-form value is accepted as it is, or its issues are reported. -/
theorem free_value (v : Json) : free .value v =
    if depthIssues maxFreeDepth v = [] then .ok v else .error (depthIssues maxFreeDepth v) := by
  simp only [free]
  split
  · next none => rw [if_pos none]
  · next some => rw [if_neg some]

end Decoder

namespace Response

open Pattern

/-! ### The Text and the JSON of an Annotation -/

/-- Nothing is taken off the ends of a text between something visible and a closing brace. -/
theorem noteText_eq_self {t before : Text} (first : ∀ c ∈ t.head?, c.isBlank = false)
    (last : t = before ++ [('\x7d' : CodePoint)]) : noteText t = t := by
  have strip : Text.strip t = t := by
    refine Text.trim_eq_self_iff.mpr ⟨first, fun d hd => ?_⟩
    rw [last, List.getLast?_concat] at hd
    cases hd
    rfl
  have noEnd : Text.endsWith t "*/" = false := by
    rw [Text.endsWith, Bool.eq_false_iff, Ne, List.isSuffixOf_iff_suffix, last,
      List.suffix_concat_iff]
    rintro (empty | ⟨t, eq, -⟩)
    · cases empty
    · have both := congrArg List.getLast? eq
      rw [List.getLast?_concat] at both
      cases both
  rw [noteText]
  simp only [strip, noEnd, Bool.false_eq_true, if_false]

/-- **The JSON of a text is what stands between its outer braces.** -/
theorem exists_find?_braces {lead inside : Text} (flat : ∀ c ∈ lead, isFlat c = true)
    (single : ('\n' : CodePoint) ∉ inside) :
    let braces : Text := ('\x7b' : CodePoint) :: (inside ++ [('\x7d' : CodePoint)])
    ∃ m, inlineJson.find? (lead ++ braces) = some m ∧ m.text = braces ∧
      m.start.offset = lead.length ∧ m.stop.offset = (lead ++ braces).length := by
  intro braces
  have rest : (Cursor.start (lead ++ braces)).rest = lead ++ (braces ++ []) := by
    rw [List.append_nil]
    rfl
  obtain ⟨c, before, rest⟩ := Cursor.exists_passes rest
  obtain ⟨d, between, atEnd⟩ := Cursor.exists_passes rest
  have inLine : ∀ x ∈ inside, (x != '\n') = true := fun x hx =>
    bne_iff_ne.mpr fun same => single (same ▸ hx)
  have leads : inlineJson.Leads (c, []) (d, []) := by
    obtain ⟨e, first, others⟩ := between.of_cons
    have all : (brace 0x7B ++ (run (fun x : CodePoint => x != '\n') ++ brace 0x7D)).Leads
        (c, []) (d, []) :=
      (leads_one rfl first).append (leads_run_last inLine rfl others atEnd)
    exact all
  have other : ∀ x ∈ lead, (x.val == 0x7B) = false := fun x hx => by
    simpa using (Bool.and_eq_true_iff.mp (flat x hx)).1
  have starts : inlineJson.StartsIn fun x => x.val == 0x7B :=
    ((startsIn_one _).append _).append _
  refine ⟨⟨c, d, []⟩, ?_, between.textUntil, ?_, ?_⟩
  · exact (findFrom?_skip starts before other).trans
      (findFrom?_of_matchAt? (matchAt?_of_leads leads))
  · change c.seen.length = _
    rw [before.seen]
    simp [Cursor.start]
  · change d.seen.length = _
    rw [(before.trans between).seen]
    simp [Cursor.start]
    omega

/-! ### Annotations -/

/-- What an annotation says: a status code of three digits, a description on one line without
braces, and the members of an example that the reader of JSON gives back. -/
structure Annotation where
  /-- The status code. -/
  code : Text
  /-- The code has three digits. -/
  size : code.length = 3
  /-- The digits are those of ASCII. -/
  digits : ∀ c ∈ code, c.isAsciiDigit = true
  /-- The description, which may be empty. -/
  description : Text
  /-- The description does not begin or end with blanks. -/
  trimmed : Text.strip description = description
  /-- The description has no braces. -/
  flat : ∀ c ∈ description, isFlat c = true
  /-- The description is on one line. -/
  single : ('\n' : CodePoint) ∉ description
  /-- The members of the example. -/
  members : Assoc Json
  /-- The example has no floating-point numbers and is within the limits of the reader. -/
  fits : Json.Fits Json.Dialect.fragment.Takes (Json.ComesBack true .fragment) (fun _ => False)
    Json.Dialect.fragment.maxDepth (.obj members)

namespace Annotation

/-- The text of the example. -/
def json (a : Annotation) : Text := Json.print .asciiInline (.obj a.members)

/-- The line of a comment that says it. -/
def line (a : Annotation) : Text :=
  " * @response " ++ a.code ++ " " ++ a.description ++ " " ++ a.json

/-- The description with the blank after it, if there is one. -/
def lead (a : Annotation) : Text :=
  if a.description = [] then [] else a.description ++ [(' ' : CodePoint)]

/-- What stands behind the code and the blanks after it. -/
def body (a : Annotation) : Text := a.lead ++ a.json

/-- The answer that is annotated. -/
def answer (a : Annotation) : Response where
  statusCode := a.code
  description := if a.description = [] then describe a.code else a.description
  example? := .obj a.members
  requiredFields := []
  optionalFields := []

/-- A comment of annotations, one on each line. -/
def source (as : List Annotation) : Text := Text.join "\n" (as.map line)

variable (a : Annotation)

/-! ### The Text of an Annotation -/

/-- The text of the example stands between braces. -/
theorem exists_json_eq : ∃ inside : Text,
    a.json = ('\x7b' : CodePoint) :: (inside ++ [('\x7d' : CodePoint)]) := by
  cases members : a.members with
  | nil => exact ⟨[], by rw [json, members]; rfl⟩
  | cons p more =>
      rw [json, members, Json.print, Json.printAt, Json.printMembers_eq,
        Json.bracket_eq _ (List.cons_ne_nil p more)]
      have regroup (x y z t : Text) : x ++ (y ++ (z ++ t)) = x ++ (y ++ z) ++ t := by simp
      exact ⟨_, congrArg _ (regroup _ _ _ _)⟩

theorem lineFeed_notMem_json : ('\n' : CodePoint) ∉ a.json :=
  Json.lineFeed_notMem_printAt rfl (by decide) (by decide) a.fits 0

theorem lineFeed_notMem_body : ('\n' : CodePoint) ∉ a.body := by
  have line : ('\n' : CodePoint) ≠ ' ' := by decide
  rw [body, lead]
  split <;> simp [a.single, a.lineFeed_notMem_json, line]

theorem flat_lead : ∀ c ∈ a.lead, isFlat c = true := by
  intro c hc
  rw [lead] at hc
  split at hc
  · cases hc
  · rcases List.mem_append.mp hc with hc | hc
    · exact a.flat c hc
    · rw [List.mem_singleton.mp hc]
      rfl

theorem strip_lead : Text.strip a.lead = a.description := by
  rw [lead]
  split
  · next empty => rw [empty]; rfl
  · exact Text.trim_concat a.trimmed rfl

/-- What stands behind the code does not begin with a blank. -/
theorem exists_body_eq_cons : ∃ c r, a.body = c :: r ∧ c.isBlank = false := by
  obtain ⟨inside, json⟩ := a.exists_json_eq
  rw [body, lead, json]
  split
  · exact ⟨_, _, rfl, rfl⟩
  · next nonempty =>
    obtain ⟨d, r, eq⟩ := List.exists_cons_of_ne_nil nonempty
    refine ⟨d, _, by rw [eq]; rfl, (Text.trim_eq_self_iff.mp a.trimmed).1 d ?_⟩
    rw [eq]
    rfl

/-- Nothing is taken off the ends of what stands behind the code. -/
theorem noteText_body : noteText a.body = a.body := by
  obtain ⟨c, r, first, other⟩ := a.exists_body_eq_cons
  obtain ⟨inside, json⟩ := a.exists_json_eq
  have last : a.body =
      (a.lead ++ ('\x7b' : CodePoint) :: inside) ++ [('\x7d' : CodePoint)] := by
    rw [body, json, List.append_assoc, List.cons_append]
  refine noteText_eq_self (fun d hd => ?_) last
  rw [first] at hd
  cases hd
  exact other

/-- A line is made of the mark of an annotation, the code, blanks and what stands behind. -/
theorem exists_line_eq : ∃ gap : Text, gap ≠ [] ∧ (∀ c ∈ gap, c.isBlank = true) ∧
    a.line = " * " ++ ("@response" ++ (" " ++ (a.code ++ (gap ++ a.body)))) := by
  by_cases empty : a.description = []
  · refine ⟨"  ", by decide, List.all_eq_true.mp rfl, ?_⟩
    rw [line, body, lead, if_pos empty, empty]
    simp [Text.ofString]
  · refine ⟨" ", by decide, List.all_eq_true.mp rfl, ?_⟩
    rw [line, body, lead, if_neg empty]
    simp [Text.ofString]

/-! ### Finding Annotations -/

/-- An annotation is read where its mark stands, up to the end of its line. -/
theorem begins_line {gap r t : Text} (nonempty : gap ≠ []) (blank : ∀ x ∈ gap, x.isBlank = true)
    (text : t = "@response" ++ (" " ++ (a.code ++ (gap ++ (a.body ++ r))))) :
    Begins "@response" " " a.code gap a.body r t where
  text := text
  mark := List.forall₂_same.mpr (List.all_eq_true.mp rfl)
  gap := ⟨by decide, List.all_eq_true.mp rfl⟩
  code := ⟨a.size, fun x hx => CodePoint.isDigit_of_isAsciiDigit (a.digits x hx)⟩
  space := ⟨nonempty, blank⟩
  nonempty := by
    obtain ⟨d, r, begins, -⟩ := a.exists_body_eq_cons
    exact begins ▸ List.cons_ne_nil d r
  single := a.lineFeed_notMem_body

/-- **The line of an annotation has one match**, with the code and what stands behind it. -/
theorem matchesLine_line : note.MatchesLine (CodePoint.sameLetter '@')
    (fun m => (m.group 1, m.group 2)) a.line (a.code, a.body) := by
  obtain ⟨blanks, nonempty, blank, eq⟩ := a.exists_line_eq
  have quiet : (" * " : Text).all (fun x => !CodePoint.sameLetter '@' x) = true := rfl
  refine ⟨_, _, eq, fun x hx => by simpa using List.all_eq_true.mp quiet x hx,
    List.append_ne_nil_of_left_ne_nil (by decide) _, fun c r rest ends => ?_⟩
  simp only [List.append_assoc] at rest
  have begins := a.begins_line nonempty blank rest
  have visible : ∀ x ∈ a.body.head?, x.isBlank = false := by
    obtain ⟨d, s, eq, other⟩ := a.exists_body_eq_cons
    rw [eq]
    rintro _ ⟨⟩
    exact other
  obtain ⟨m, matched, code, body, stop⟩ := exists_matchAt?_of_visible begins visible ends
  exact ⟨m, matched, stop, congrArg₂ Prod.mk code body⟩

/-- The annotations of a comment are found in order. -/
theorem findAll_source (as : List Annotation) :
    (note.findAll (source as)).map (fun m => (m.group 1, m.group 2)) =
      as.map fun a => (a.code, a.body) :=
  findAll_join_lines startsIn_note rfl matchesLine_line as

/-! ### Reading an Annotation -/

/-- **The JSON of an annotation is what stands between its outer braces.** -/
theorem exists_find?_inlineJson : ∃ m, inlineJson.find? a.body = some m ∧ m.text = a.json ∧
    m.start.offset = a.lead.length ∧ m.stop.offset = a.body.length := by
  obtain ⟨inside, json⟩ := a.exists_json_eq
  have single : ('\n' : CodePoint) ∉ inside := fun mem =>
    a.lineFeed_notMem_json (by rw [json]; simp [mem])
  rw [body, json]
  exact exists_find?_braces a.flat_lead single

theorem read_json : Json.read .fragment a.json = .ok (.obj a.members) := by
  have readable : Json.Readable .fragment 0 a.json ((Json.obj a.members).mapFloats .float) :=
    a.fits.readable_of_comesBack Json.separates_asciiInline (fun _ => False.elim) (by omega)
  rw [readable.read_eq_ok, Json.mapFloats_float]

/-- What an annotation is read as depends on the nesting of its example. -/
theorem ofNote_body :
    ((Json.obj a.members).levels ≤ Decoder.maxFreeDepth → ofNote a.code a.body = .ok a.answer) ∧
      (¬ (Json.obj a.members).levels ≤ Decoder.maxFreeDepth →
        ∃ issues, ofNote a.code a.body = .error (.refused issues)) := by
  obtain ⟨m, found, text, start, stop⟩ := a.exists_find?_inlineJson
  have issues_iff := Decoder.depthIssues_eq_nil_iff (.obj a.members) Decoder.maxFreeDepth
  have around : Text.strip (a.body.take m.start.offset ++ a.body.drop m.stop.offset) =
      a.description := by
    rw [start, stop, List.drop_length, List.append_nil, body, List.take_left, a.strip_lead]
  rw [ofNote]
  simp only [a.noteText_body, found, text, a.read_json, around, Decoder.free_value, ← issues_iff]
  constructor
  · intro shallow
    simp only [shallow, if_true, answer, List.isEmpty_iff]
  · intro deep
    simp only [deep, if_false]
    exact ⟨_, rfl⟩

/-! ### Whole Comments -/

/-- The annotated answers of a comment are those of its annotations, one after another. -/
theorem annotated_source (as : List Annotation) :
    annotated (source as) = as.foldlM (fun found a =>
      (ofNote a.code a.body).map fun r => Assoc.put a.code r found) [] := by
  have pairs := congrArg (List.foldlM (fun found (p : Text × Text) =>
    (ofNote p.1 p.2).map fun r => Assoc.put p.1 r found) ([] : Assoc Response))
    (findAll_source as)
  rw [List.foldlM_map, List.foldlM_map] at pairs
  exact pairs

theorem foldlM_of_shallow (as : List Annotation) (found : Assoc Response)
    (shallow : ∀ a ∈ as, (Json.obj a.members).levels ≤ Decoder.maxFreeDepth)
    (distinct : (found.map (·.1) ++ as.map code).Nodup) :
    as.foldlM (fun found a => (ofNote a.code a.body).map fun r => Assoc.put a.code r found) found =
      (.ok (found ++ as.map fun a => (a.code, a.answer)) : Except NoteFault (Assoc Response)) := by
  induction as generalizing found with
  | nil =>
      rw [List.map_nil, List.append_nil]
      rfl
  | cons a more ih =>
      obtain ⟨first, others⟩ := List.forall_mem_cons.mp shallow
      have new : a.code ∉ found.map (·.1) := fun mem =>
        (List.nodup_append.mp distinct).2.2 _ mem a.code (by simp) rfl
      rw [List.foldlM_cons, a.ofNote_body.1 first]
      have next := ih (Assoc.put a.code a.answer found) others (by
        rw [Assoc.put_of_notMem new]
        simpa using distinct)
      refine next.trans ?_
      rw [Assoc.put_of_notMem new, List.append_assoc]
      rfl

theorem exists_foldlM_of_deep (as : List Annotation) (found : Assoc Response) {a : Annotation}
    (mem : a ∈ as) (deep : ¬ (Json.obj a.members).levels ≤ Decoder.maxFreeDepth) :
    ∃ issues, as.foldlM (fun found a =>
      (ofNote a.code a.body).map fun r => Assoc.put a.code r found) found =
        (.error (.refused issues) : Except NoteFault (Assoc Response)) := by
  induction as generalizing found with
  | nil => cases mem
  | cons b more ih =>
      rw [List.foldlM_cons]
      by_cases shallow : (Json.obj b.members).levels ≤ Decoder.maxFreeDepth
      · have later : a ∈ more := (List.mem_cons.mp mem).resolve_left fun same =>
          deep (same ▸ shallow)
        rw [b.ofNote_body.1 shallow]
        exact ih _ later
      · obtain ⟨issues, refused⟩ := b.ofNote_body.2 shallow
        rw [refused]
        exact ⟨issues, rfl⟩

/-- **Annotations are read back if their examples are not nested too deep**: each code has the
answer that was annotated for it, in the same order. If an example is nested deeper than values of
the documentation may be, it is refused and no answer is returned. -/
theorem annotated_source_iff {as : List Annotation} (distinct : (as.map code).Nodup) :
    (annotated (source as) = .ok (as.map fun a => (a.code, a.answer)) ↔
        ∀ a ∈ as, (Json.obj a.members).levels ≤ Decoder.maxFreeDepth) ∧
      ((∃ a ∈ as, ¬ (Json.obj a.members).levels ≤ Decoder.maxFreeDepth) →
        ∃ issues, annotated (source as) = .error (.refused issues)) := by
  rw [annotated_source]
  refine ⟨⟨fun read a mem => ?_, fun shallow => ?_⟩, ?_⟩
  · by_contra deep
    obtain ⟨issues, refused⟩ := exists_foldlM_of_deep as [] mem deep
    rw [refused] at read
    cases read
  · exact foldlM_of_shallow as [] shallow distinct
  · rintro ⟨a, mem, deep⟩
    exact exists_foldlM_of_deep as [] mem deep

/-- The annotation of a user, whose name holds braces. -/
def ofUser : Annotation where
  code := "200"
  size := rfl
  digits := List.all_eq_true.mp rfl
  description := "User found"
  trimmed := by decide +kernel
  flat := List.all_eq_true.mp rfl
  single := by decide +kernel
  members := [("id", .int 7), ("name", .str "\x7badmin\x7d")]
  fits := .obj (by decide +kernel) (by simp [Json.ComesBack]) (by
    simp [Json.ComesBack]
    decide)

/-- The annotation of a refusal, without a description. -/
def ofRefusal : Annotation where
  code := "403"
  size := rfl
  digits := List.all_eq_true.mp rfl
  description := []
  trimmed := rfl
  flat := List.forall_mem_nil _
  single := List.not_mem_nil
  members := [("error", .str "not allowed")]
  fits := .obj (by decide +kernel) (by simp [Json.ComesBack]) (by simp [Json.ComesBack])

theorem annotated_source_users : ([ofUser, ofRefusal].map code).Nodup ∧
    annotated (source [ofUser, ofRefusal]) = .ok [
      ("200", ⟨"200", "User found", .obj [("id", .int 7), ("name", .str "\x7badmin\x7d")], [], []⟩),
      ("403", ⟨"403", "Forbidden", .obj [("error", .str "not allowed")], [], []⟩)] := by
  have distinct : ([ofUser, ofRefusal].map code).Nodup := by decide +kernel
  refine ⟨distinct, ((annotated_source_iff distinct).1.mpr fun a mem => ?_).trans rfl⟩
  rcases List.mem_cons.mp mem with rfl | mem
  · decide
  · rw [List.mem_singleton.mp mem]
    decide

/-- Members that are nested to a depth. -/
def nest : Nat → Assoc Json
  | 0 => []
  | n + 1 => [("a", .obj (nest n))]

theorem levels_nest (n : Nat) : (Json.obj (nest n)).levels = n + 1 := by
  induction n with
  | zero => rfl
  | succ n ih =>
      change max (Json.obj (nest n)).levels 0 + 1 = n + 1 + 1
      rw [ih, Nat.max_zero]

theorem fits_nest {ints : Int → Prop} {texts : Text → Prop} {floats : Binary64 → Prop}
    (name : texts "a") (n : Nat) : Json.Fits ints texts floats (n + 1) (.obj (nest n)) := by
  induction n with
  | zero => exact .obj List.nodup_nil (List.forall_mem_nil _) (List.forall_mem_nil _)
  | succ n ih =>
      rw [nest]
      exact .obj (List.nodup_singleton _) (by simpa using name) (by simpa using ih)

/-- An annotation whose example consists of three hundred objects, one within the other. -/
def tooDeep : Annotation where
  code := "200"
  size := rfl
  digits := List.all_eq_true.mp rfl
  description := []
  trimmed := rfl
  flat := List.forall_mem_nil _
  single := List.not_mem_nil
  members := nest 299
  fits := (fits_nest (.inl rfl) _).mono (fun _ => id) (fun _ => id) (fun _ => id) (by decide)

/-- An annotation whose example is a text of one code point beyond the first plane. -/
def ofSmile : Annotation where
  code := "200"
  size := rfl
  digits := List.all_eq_true.mp rfl
  description := []
  trimmed := rfl
  flat := List.forall_mem_nil _
  single := List.not_mem_nil
  members := [("mood", .str [CodePoint.ofNat 0x1F600])]
  fits := .obj (by decide +kernel) (by simp [Json.ComesBack]) (by simp [Json.ComesBack]; decide)

/-- **Annotations that are not read back**: an example that the reader of JSON accepts but that is
nested too deep, and a text of the two halves of a pair, which come back as one code point. -/
theorem annotated_ne_answer :
    (Json.read .fragment tooDeep.json = .ok (.obj tooDeep.members) ∧
      annotated (source [tooDeep]) ≠ .ok [("200", tooDeep.answer)]) ∧
    annotated (" * @response 200  " ++
        Json.print .asciiInline (.obj [
          ("mood", .str [CodePoint.ofNat 0xD83D, CodePoint.ofNat 0xDE00])])) =
      .ok [("200",
        ⟨"200", "Success", .obj [("mood", .str [CodePoint.ofNat 0x1F600])], [], []⟩)] := by
  refine ⟨⟨tooDeep.read_json, fun read => ?_⟩, ?_⟩
  · have deep : ¬ (Json.obj tooDeep.members).levels ≤ Decoder.maxFreeDepth := by
      rw [show (Json.obj tooDeep.members).levels = 300 from levels_nest 299]
      decide
    obtain ⟨issues, refused⟩ := exists_foldlM_of_deep [tooDeep] [] List.mem_cons_self deep
    rw [annotated_source, refused] at read
    cases read
  · have same : (" * @response 200  " : Text) ++
        Json.print .asciiInline (.obj [
          ("mood", .str [CodePoint.ofNat 0xD83D, CodePoint.ofNat 0xDE00])]) = source [ofSmile] := by
      decide +kernel
    rw [same, annotated_source]
    refine foldlM_of_shallow [ofSmile] [] (fun a mem => ?_) (by decide +kernel)
    rw [List.mem_singleton.mp mem]
    decide

end Annotation

end Response

end RouteDocs
