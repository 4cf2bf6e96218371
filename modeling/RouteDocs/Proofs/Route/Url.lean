import RouteDocs.Infer.Parameters
import RouteDocs.Proofs.Route.Bracket

/-!
# URLs of Well-Formed Routes

A route is a list of segments: fixed names, dynamic names in brackets and groups in parentheses.
The URL of its handler file has the fixed names as they are, the dynamic names in braces and
nothing for the groups; the parameters of the URL are the dynamic names.

## Main Definitions

* `Route.Segment`: the segments of a route, and `Route.Segment.text`, how they are written
* `Route.Segment.WellFormed`: the segments that say one thing only
* `Route.template`: the URL of a list of segments
* `Route.dynamicNames`: the dynamic names of a list of segments

## Main Statements

* `Route.templateSegment_text`: the bracketed name of a dynamic segment stands in braces
* `Route.url_eq_template`: the URL of a file below the API root
* `Route.bracedNames_template`: the names in braces are the dynamic names
* `Route.url_of_segments`: **every well-formed route has the URL and the parameters of its
  segments**

## Design Notes

The forms of a dynamic segment differ in the text before and after the name only, so that there is
one lemma for all of them.
-/

namespace RouteDocs

namespace Route

/-! ### Segments -/

/-- The forms of a dynamic segment: one segment, the rest of the path, or the rest if there is
one. -/
inductive Form where
  /-- The form `[n]`. -/
  | one
  /-- The form `[...n]`. -/
  | rest
  /-- The form `[[...n]]`. -/
  | optionalRest
  deriving DecidableEq

namespace Form

/-- What stands before the name. -/
def opening : Form → Text
  | one => "["
  | rest => "[..."
  | optionalRest => "[[..."

/-- What stands after the name. -/
def closing : Form → Text
  | one => "]"
  | rest => "]"
  | optionalRest => "]]"

end Form

/-- A segment of a route. -/
inductive Segment where
  /-- A name that stands for itself. -/
  | fixed (name : Text)
  /-- A name for what a request has in this place. -/
  | dynamic (form : Form) (name : Text)
  /-- A name that is no part of the URL. -/
  | group (name : Text)
  deriving DecidableEq

/-- The texts without square brackets and braces. -/
def Unmarked (t : Text) : Prop :=
  ∀ c ∈ t, c ≠ ('[' : CodePoint) ∧ c ≠ (']' : CodePoint) ∧ c.val ≠ 0x7B ∧ c.val ≠ 0x7D

instance (t : Text) : Decidable (Unmarked t) :=
  List.decidableBAll _ t

/-- A text without braces has no closing brace. -/
theorem Unmarked.closed {t : Text} (unmarked : Unmarked t) : ('\x7d' : CodePoint) ∉ t :=
  fun mem => (unmarked _ mem).2.2.2 rfl

namespace Segment

/-- How a segment is written. -/
def text : Segment → Text
  | fixed name => name
  | dynamic form name => form.opening ++ name ++ form.closing
  | group name => "(" ++ name ++ ")"

/-- The segments that say one thing only: a fixed name is neither a group nor the directory
itself, and a dynamic name does not begin with the points that tell its form. -/
def WellFormed : Segment → Prop
  | fixed name => name ≠ [] ∧ name ≠ "." ∧ Plain name ∧ Unmarked name ∧
      (name.startsWith "(" && name.endsWith ")") = false
  | dynamic _ name => name ≠ [] ∧ Plain name ∧ Unmarked name ∧ name.startsWith "..." = false
  | group name => Plain name

instance : ∀ s : Segment, Decidable s.WellFormed
  | fixed name => inferInstanceAs (Decidable (name ≠ [] ∧ name ≠ "." ∧ Plain name ∧
      Unmarked name ∧ (name.startsWith "(" && name.endsWith ")") = false))
  | dynamic _ name => inferInstanceAs (Decidable (name ≠ [] ∧ Plain name ∧ Unmarked name ∧
      name.startsWith "..." = false))
  | group name => inferInstanceAs (Decidable (Plain name))

/-- What the URL has for a segment. -/
def part? : Segment → Option Text
  | fixed name => some name
  | dynamic _ name => some ("\x7b" ++ name ++ "\x7d")
  | group _ => none

/-- The name of a dynamic segment. -/
def dynamic? : Segment → Option Text
  | dynamic _ name => some name
  | _ => none

end Segment

/-- The URL of a list of segments. -/
def template (segs : List Segment) : Text :=
  apiRoot ++ (segs.filterMap Segment.part?).flatMap fun part => ('/' : CodePoint) :: part

/-- The dynamic names of a list of segments. -/
def dynamicNames (segs : List Segment) : List Text :=
  segs.filterMap Segment.dynamic?

variable {t n body r : Text} {s : Segment} {segs : List Segment}

/-! ### Brackets -/

theorem takeWhile_body (plain : Plain body) (unmarked : Unmarked body) (r : Text) :
    (body ++ (']' : CodePoint) :: r).takeWhile
      (fun d : CodePoint => d != '[' && d != ']' && d != '/') = body := by
  have inside : ∀ d ∈ body, (d != ('[' : CodePoint) && d != ']' && d != '/') = true := by
    intro d hd
    obtain ⟨opening, closing, -, -⟩ := unmarked d hd
    simp [opening, closing, (plain d hd).1]
  rw [List.takeWhile_append_of_pos inside]
  simp

/-- Nothing is left of a text that is passed over. -/
theorem bracesAfter_eq_nil {k : Nat} (le : r.length ≤ k) : bracesAfter k r = [] := by
  induction r generalizing k with
  | nil => cases k <;> rfl
  | cons c r ih =>
      cases k with
      | zero => cases le
      | succ k => exact ih (Nat.le_of_succ_le_succ le)

/-- **A segment that is a bracketed name** becomes the name in braces, without the points before
it, whether it is in single or in double brackets. -/
theorem templateSegment_bracketed {after : Text} (opened : Nat) (ne : body ≠ [])
    (plain : Plain body) (unmarked : Unmarked body)
    (second : (if r.head? == some ('[' : CodePoint) then 1 else 0) = opened)
    (eq : r.drop opened = body ++ (']' : CodePoint) :: after)
    (last : after = [] ∨ after = [(']' : CodePoint)]) :
    templateSegment (('[' : CodePoint) :: r) = "\x7b" ++ withoutDots body ++ "\x7d" := by
  have rest : r.drop (opened + body.length) = (']' : CodePoint) :: after := by
    rw [← List.drop_drop, eq, List.drop_left]
  have nonempty : body.isEmpty = false := List.isEmpty_eq_false_iff.mpr ne
  have found : bracketed? (('[' : CodePoint) :: r) = some (withoutDots body,
      1 + opened + body.length + if after.head? == some (']' : CodePoint) then 2 else 1) := by
    simp only [bracketed?, second, eq, takeWhile_body plain unmarked, rest, nonempty]
    rfl
  -- What is passed over is the whole segment.
  have length := congrArg List.length eq
  rw [List.length_drop, List.length_append, List.length_cons] at length
  have all : r.length ≤ 1 + opened + body.length +
      (if after.head? == some (']' : CodePoint) then 2 else 1) - 1 := by
    rcases last with rfl | rfl
    · rw [List.length_nil] at length
      rw [if_neg (by simp)]
      omega
    · rw [List.length_singleton] at length
      rw [if_pos (by simp)]
      omega
  rw [templateSegment, bracesAfter, found]
  simp only [bracesAfter_eq_nil all]
  rfl

/-- A segment without brackets stays what it is. -/
theorem templateSegment_unmarked (unmarked : Unmarked t) : templateSegment t = t :=
  templateSegment_of_not_mem fun mem => (unmarked _ mem).1 rfl

/-- Points before a name are not part of it. -/
theorem withoutDots_append (ne : n ≠ []) : withoutDots ("..." ++ n) = n := by
  have long : 3 < (("..." : Text) ++ n).length := by
    have := List.length_pos_iff.mpr ne
    rw [List.length_append]
    exact Nat.lt_add_of_pos_right this
  rw [withoutDots, if_pos]
  · rfl
  · rw [Bool.and_eq_true_iff]
    exact ⟨List.isPrefixOf_iff_prefix.mpr (List.prefix_append _ n), decide_eq_true long⟩

theorem withoutDots_eq_self (absent : n.startsWith "..." = false) : withoutDots n = n := by
  rw [withoutDots, absent]
  rfl

/-- **The bracketed name of a dynamic segment stands in braces**, in each of its forms. -/
theorem templateSegment_dynamic (form : Form) (wf : (Segment.dynamic form n).WellFormed) :
    templateSegment (Segment.dynamic form n).text = "\x7b" ++ n ++ "\x7d" := by
  obtain ⟨ne, plain, unmarked, dots⟩ := wf
  have dotted : Plain ("..." ++ n) := .append (by decide) plain
  have dotted' : Unmarked ("..." ++ n) := by
    intro c hc
    rcases List.mem_append.mp hc with hc | hc
    · exact (show Unmarked "..." by decide) c hc
    · exact unmarked c hc
  have ne' : ("..." : Text) ++ n ≠ [] := List.append_ne_nil_of_right_ne_nil _ ne
  cases form with
  | one =>
      have second : ((n ++ [(']' : CodePoint)]).head? == some ('[' : CodePoint)) = false := by
        obtain ⟨c, t, rfl⟩ := List.exists_cons_of_ne_nil ne
        simpa using (unmarked c (by simp)).1
      have braced := templateSegment_bracketed (r := n ++ "]") 0 ne plain unmarked
        (if_neg (Bool.eq_false_iff.mp second)) rfl (.inl rfl)
      rwa [withoutDots_eq_self dots] at braced
  | rest =>
      have braced := templateSegment_bracketed (r := "..." ++ n ++ "]") 0 ne' dotted dotted'
        rfl rfl (.inl rfl)
      rwa [withoutDots_append ne] at braced
  | optionalRest =>
      have braced := templateSegment_bracketed (r := "[..." ++ n ++ "]]") 1 ne' dotted dotted'
        rfl rfl (.inr rfl)
      rwa [withoutDots_append ne] at braced

/-! ### Segments of the URL -/

theorem plain_text (wf : s.WellFormed) : Plain s.text := by
  cases s with
  | fixed name => exact wf.2.2.1
  | dynamic form name =>
      have marks : Plain form.opening ∧ Plain form.closing := by cases form <;> decide
      exact (marks.1.append wf.2.1).append marks.2
  | group name => exact (Plain.append (by decide) wf).append (by decide)

theorem isGroup_group (name : Text) : isGroup (Segment.group name).text = true := by
  rw [isGroup, Bool.and_eq_true_iff]
  exact ⟨List.isPrefixOf_iff_prefix.mpr ⟨name ++ ")", rfl⟩,
    List.isSuffixOf_iff_suffix.mpr (List.suffix_append _ _)⟩

/-- A segment is kept if the URL has something for it. -/
theorem isUrlSegment_text (wf : s.WellFormed) : isUrlSegment s.text = s.part?.isSome := by
  cases s with
  | fixed name =>
      obtain ⟨nonempty, dot, -, -, group⟩ := wf
      have grouped : isGroup name = false := group
      have empty : name.isEmpty = false := List.isEmpty_eq_false_iff.mpr nonempty
      simp [isUrlSegment, Segment.text, Segment.part?, grouped, empty, dot]
  | dynamic form name => cases form <;> rfl
  | group name =>
      rw [isUrlSegment, isGroup_group, Bool.not_true, Bool.and_false]
      rfl

/-- **The URL has the part of a segment in the place of its text.** -/
theorem templateSegment_text {part : Text} (wf : s.WellFormed) (kept : s.part? = some part) :
    templateSegment s.text = part := by
  cases s with
  | fixed name =>
      cases kept
      exact templateSegment_unmarked wf.2.2.2.1
  | dynamic form name =>
      cases kept
      exact templateSegment_dynamic form wf
  | group name => cases kept

/-- The segments of a URL are the parts of the segments of the route. -/
theorem map_templateSegment (wf : ∀ s ∈ segs, s.WellFormed) :
    ((segs.map Segment.text).filter isUrlSegment).map templateSegment =
      segs.filterMap Segment.part? := by
  induction segs with
  | nil => rfl
  | cons s segs ih =>
      have first := wf s List.mem_cons_self
      have rest := ih fun u hu => wf u (List.mem_cons_of_mem s hu)
      rw [List.map_cons, List.filter_cons, isUrlSegment_text first]
      cases kept : s.part? with
      | none => rw [List.filterMap_cons_none kept, Option.isSome_none, if_neg nofun, rest]
      | some part =>
          rw [List.filterMap_cons_some kept, Option.isSome_some, if_pos rfl, List.map_cons,
            templateSegment_text first kept, rest]

theorem part_ne_nil {part : Text} (wf : s.WellFormed) (kept : s.part? = some part) :
    part ≠ [] := by
  cases s with
  | fixed name => exact Option.some.inj kept ▸ wf.1
  | dynamic form name =>
      cases kept
      exact List.append_ne_nil_of_right_ne_nil _ (List.cons_ne_nil _ _)
  | group name => cases kept

/-- Parts that are joined below a slash have a slash before each. -/
theorem slash_join {parts : List Text} (ne : parts ≠ []) :
    ('/' : CodePoint) :: Text.join "/" parts =
      parts.flatMap fun part => ('/' : CodePoint) :: part := by
  induction parts with
  | nil => exact absurd rfl ne
  | cons part parts ih =>
      cases parts with
      | nil => simp [join_slash_singleton]
      | cons u parts =>
          have more := List.cons_ne_nil u parts
          rw [join_slash_cons part more, ih more]
          rfl

/-- The parts stand below the API root, which stands alone if there are none. -/
theorem apiRoot_join {parts : List Text} (nonempty : ∀ part ∈ parts, part ≠ []) :
    (if (Text.join "/" parts).isEmpty then apiRoot else apiRoot ++ "/" ++ Text.join "/" parts) =
      apiRoot ++ parts.flatMap fun part => ('/' : CodePoint) :: part := by
  cases parts with
  | nil => rfl
  | cons part more =>
      have joined : (Text.join "/" (part :: more)).isEmpty = false := by
        obtain ⟨x, eq, -, -⟩ := boundary_join more part
        rw [eq, List.isEmpty_eq_false_iff]
        exact List.append_ne_nil_of_left_ne_nil (nonempty part (by simp)) x
      rw [joined, if_neg nofun, List.append_assoc, ← slash_join (List.cons_ne_nil part more)]
      rfl

/-- A handler file is dropped from its path, and the directories before it that are segments of a
URL are kept. -/
theorem filter_splitOn_dropName {names : List Text} {handler : Text}
    (plain : ∀ t ∈ names, Plain t) (named : handler ∈ handlerNames)
    (last : names.getLast? ≠ some ("index" : Text)) :
    ((dropName ["index"] (dropName handlerNames (Text.join "/" (names ++ [handler])))).splitOn
      '/').filter isUrlSegment = names.filter isUrlSegment := by
  have handlers : ∀ name ∈ handlerNames, Plain name := by decide
  have unhandled : dropName handlerNames (Text.join "/" (names ++ [handler])) =
      Text.join "/" names := by
    rw [dropName_join handlers plain (handlers handler named), if_pos named]
  have unindexed : dropName ["index"] (Text.join "/" names) = Text.join "/" names := by
    rcases List.eq_nil_or_concat names with none | ⟨before, t, eq⟩
    · rw [none]
      rfl
    · rw [List.concat_eq_append] at eq
      rw [eq] at plain last ⊢
      have kept : t ∉ ([("index" : Text)] : List Text) := by
        rw [List.getLast?_concat] at last
        exact fun mem => last (congrArg some (List.mem_singleton.mp mem))
      rw [dropName_join (by decide) (fun u hu => plain u (List.mem_append_left _ hu))
        (plain t (by simp)), if_neg kept]
  rw [unhandled, unindexed]
  by_cases none : names = []
  · rw [none]
    rfl
  · rw [splitOn_join_slash none plain]

/-- **The URL of a file below the API root** is that of its segments. -/
theorem url_eq_template {path handler : Text} {root : Option Text}
    (wf : ∀ s ∈ segs, s.WellFormed) (named : handler ∈ handlerNames)
    (last : (segs.map Segment.text).getLast? ≠ some ("index" : Text))
    (below : belowRoot (withSlashes path) root =
      Text.join "/" (segs.map Segment.text ++ [handler])) :
    url path root = template segs := by
  have plain : ∀ t ∈ segs.map Segment.text, Plain t := by
    intro t ht
    obtain ⟨s, hs, rfl⟩ := List.mem_map.mp ht
    exact plain_text (wf s hs)
  have nonempty : ∀ part ∈ segs.filterMap Segment.part?, part ≠ [] := by
    intro part mem
    obtain ⟨s, hs, kept⟩ := List.mem_filterMap.mp mem
    exact part_ne_nil (wf s hs) kept
  simp only [url, below, filter_splitOn_dropName plain named last, map_templateSegment wf]
  exact apiRoot_join nonempty

/-! ### Names in Braces -/

/-- What is passed over has no names. -/
theorem bracedNames_skip (t r : Text) : bracedNames t.length (t ++ r) = bracedNames 0 r := by
  induction t with
  | nil => rfl
  | cons c t ih => exact ih

/-- A text without braces has no names. -/
theorem bracedNames_append (unmarked : Unmarked t) (r : Text) :
    bracedNames 0 (t ++ r) = bracedNames 0 r := by
  induction t with
  | nil => rfl
  | cons c t ih =>
      have other : (c.val == 0x7B) = false := by simpa using (unmarked c (by simp)).2.2.1
      rw [List.cons_append, bracedNames, other,
        ← ih fun d hd => unmarked d (List.mem_cons_of_mem c hd)]
      rfl

/-- A name in braces is found. -/
theorem bracedNames_braced (ne : n ≠ []) (closed : ('\x7d' : CodePoint) ∉ n) (r : Text) :
    bracedNames 0 ("\x7b" ++ n ++ "\x7d" ++ r) = n :: bracedNames 0 r := by
  have inside : ∀ d ∈ n, (d.val != 0x7D) = true := by
    intro d hd
    refine bne_iff_ne.mpr fun same => closed ?_
    rwa [← (Fin.ext same : d = '\x7d')]
  have shape : ("\x7b" : Text) ++ n ++ "\x7d" ++ r =
      ('\x7b' : CodePoint) :: (n ++ ('\x7d' : CodePoint) :: r) := by
    rw [List.append_assoc, List.append_assoc]
    rfl
  have name : (n ++ ('\x7d' : CodePoint) :: r).takeWhile (fun d : CodePoint => d.val != 0x7D) =
      n := by
    rw [List.takeWhile_append_of_pos inside, List.takeWhile_cons_of_neg (by decide),
      List.append_nil]
  have nonempty : n.isEmpty = false := List.isEmpty_eq_false_iff.mpr ne
  have ended : n.length < (n ++ ('\x7d' : CodePoint) :: r).length := by simp
  have after : bracedNames (n.length + 1) (n ++ ('\x7d' : CodePoint) :: r) = bracedNames 0 r := by
    have skip := bracedNames_skip (n ++ [('\x7d' : CodePoint)]) r
    rwa [List.length_append, List.append_assoc] at skip
  rw [shape, bracedNames]
  simp only [name, nonempty, after, decide_eq_true ended]
  rfl

/-- **The names in braces are the dynamic names** of the segments. -/
theorem bracedNames_template (wf : ∀ s ∈ segs, s.WellFormed) :
    bracedNames 0 (template segs) = dynamicNames segs := by
  have slash : Unmarked "/" := by decide
  rw [template, bracedNames_append (show Unmarked apiRoot by decide)]
  induction segs with
  | nil => rfl
  | cons s segs ih =>
      have first := wf s List.mem_cons_self
      have rest := ih fun u hu => wf u (List.mem_cons_of_mem s hu)
      cases s with
      | fixed name =>
          calc bracedNames 0 ("/" ++ (name ++ _))
              = bracedNames 0 (name ++ _) := bracedNames_append slash _
            _ = bracedNames 0 _ := bracedNames_append first.2.2.2.1 _
            _ = dynamicNames segs := rest
      | dynamic form name =>
          calc bracedNames 0 ("/" ++ ("\x7b" ++ name ++ "\x7d" ++ _))
              = bracedNames 0 ("\x7b" ++ name ++ "\x7d" ++ _) := bracedNames_append slash _
            _ = name :: bracedNames 0 _ := bracedNames_braced first.1 first.2.2.1.closed _
            _ = name :: dynamicNames segs := congrArg (name :: ·) rest
      | group name => exact rest

/-! ### Routes -/

/-- **Every well-formed route has the URL and the parameters of its segments.** A directory before
`app/api` does not count, and neither does a root directory that is given, if the path is neither
below `app/api` nor a template. -/
theorem url_of_segments {dir : Directory} {handler : Text} (below : dir.WellFormed)
    (wf : ∀ s ∈ segs, s.WellFormed) (named : handler ∈ handlerNames)
    (last : (segs.map Segment.text).getLast? ≠ some ("index" : Text)) :
    (¬Anchored dir.names → ∀ root,
      url (dir.path (appApi ++ (segs.map Segment.text ++ [handler]))) root = template segs) ∧
    (dir.names ≠ [] → ¬Anchored (dir.names ++ (segs.map Segment.text ++ [handler])) →
      dir.names.head? ≠ some ("api" : Text) →
      url (dir.path (segs.map Segment.text ++ [handler])) (some (dir.path [])) = template segs) ∧
    Parameter.ofUrl (template segs) = (dynamicNames segs).map fun name =>
      ⟨name, "string", true, .path, some ("Path parameter: " ++ name), .null⟩ := by
  have handlers : ∀ name ∈ handlerNames, Plain name := by decide
  have plain : ∀ t ∈ segs.map Segment.text ++ [handler], Plain t := by
    intro t ht
    rcases List.mem_append.mp ht with ht | ht
    · obtain ⟨s, hs, rfl⟩ := List.mem_map.mp ht
      exact plain_text (wf s hs)
    · exact List.mem_singleton.mp ht ▸ handlers handler named
  refine ⟨fun apart root => ?_, fun ne apart first => ?_, ?_⟩
  · refine url_eq_template wf named last ?_
    have anchor : ∀ t ∈ appApi, Plain t := by decide
    rw [Directory.withSlashes_path below fun t ht =>
      (List.mem_append.mp ht).elim (anchor t) (plain t)]
    exact Directory.belowRoot_anchored below plain apart root
  · refine url_eq_template wf named last ?_
    rw [Directory.withSlashes_path below plain]
    exact Directory.belowRoot_rooted below ne (List.concat_ne_nil _ _) plain apart first
  · rw [Parameter.ofUrl, bracedNames_template wf]

/-- A directory that ends with the first segment of the pair that is looked for. -/
def appDirectory : Directory := ⟨true, ["srv", "app"]⟩

/-- A route with a segment of each kind. -/
def fileSegments : List Segment :=
  [.fixed "users", .dynamic .one "id", .group "own", .dynamic .optionalRest "file"]

theorem url_of_segments_files : appDirectory.WellFormed ∧ (∀ s ∈ fileSegments, s.WellFormed) ∧
    ("route.tsx" : Text) ∈ handlerNames ∧
    (fileSegments.map Segment.text).getLast? ≠ some ("index" : Text) ∧
    ¬Anchored appDirectory.names ∧
    ¬Anchored (appDirectory.names ++ (fileSegments.map Segment.text ++ [("route.tsx" : Text)])) ∧
    appDirectory.names.head? ≠ some ("api" : Text) ∧
    url "/srv/app/app/api/users/[id]/(own)/[[...file]]/route.tsx" none =
      "/api/users/\x7bid\x7d/\x7bfile\x7d" ∧
    url "/srv/app/users/[id]/(own)/[[...file]]/route.tsx" (some ("/srv/app" : Text)) =
      "/api/users/\x7bid\x7d/\x7bfile\x7d" ∧
    (Parameter.ofUrl "/api/users/\x7bid\x7d/\x7bfile\x7d").map (·.name) =
      [("id" : Text), ("file" : Text)] := by
  have below : appDirectory.WellFormed := by decide
  have wf : ∀ s ∈ fileSegments, s.WellFormed := by decide
  have named : ("route.tsx" : Text) ∈ handlerNames := by decide
  have last : (fileSegments.map Segment.text).getLast? ≠ some ("index" : Text) := by decide
  have apart : ¬Anchored appDirectory.names := by decide
  have apart' : ¬Anchored (appDirectory.names ++
      (fileSegments.map Segment.text ++ [("route.tsx" : Text)])) := by decide
  have first : appDirectory.names.head? ≠ some ("api" : Text) := by decide
  obtain ⟨anchored, rooted, parameters⟩ := url_of_segments below wf named last
  refine ⟨below, wf, named, last, apart, apart', first, anchored apart none,
    rooted nofun apart' first, ?_⟩
  exact (congrArg (List.map (·.name)) parameters).trans rfl

end Route

end RouteDocs
