import RouteDocs.Proofs.Route.Url

/-!
# Settled Templates

A URL template is read as a path again when the URL of a template is asked for.  It stays what it
is if none of the rewrites finds anything in it, and otherwise it does not.

## Main Definitions

* `Route.rooted`: the URL of the parts below the API root
* `Route.parts`: the parts of the URL of a path
* `Route.Settled`: the templates in which no rewrite finds anything

## Main Statements

* `Route.url_eq_rooted`: every URL is made of parts, each of which is a segment of a URL
* `Route.url_rooted_iff`: a URL is its own URL exactly if it is settled
* `Route.settled_template_iff`: the settled templates among those of well-formed routes
* `Route.url_url_iff`: **the URL of a path is its own URL exactly if it is settled**
* `Route.url_url_ne`: a path whose URL is not

## Design Notes

Each rewrite keeps a text or makes it shorter, apart from the API root that is put in front and
taken off again.  So a URL that is its own URL has passed through all of them unchanged.
-/

namespace RouteDocs

namespace Route

/-! ### URLs Made of Parts -/

/-- The URL of the parts below the API root. -/
def rooted (ps : List Text) : Text :=
  apiRoot ++ ps.flatMap fun part => ('/' : CodePoint) :: part

/-- The parts of the URL of a path below the API root. -/
def parts (below : Text) : List Text :=
  (((dropName ["index"] (dropName handlerNames below)).splitOn '/').filter isUrlSegment).map
    templateSegment

/-- The texts that are a part of a URL: segments without slashes and backslashes that are neither
empty, nor the directory itself, nor a group. -/
structure IsPart (part : Text) : Prop where
  /-- It is part of the URL. -/
  kept : isUrlSegment part = true
  /-- It is a single segment. -/
  single : ('/' : CodePoint) ∉ part
  /-- It has no backslashes. -/
  straight : ∀ c ∈ part, c.val ≠ 0x5C

variable {ps : List Text} {t r path : Text} {root : Option Text}

/-- A part becomes a part. -/
theorem IsPart.templateSegment (part : IsPart t) : IsPart (templateSegment t) where
  kept := isUrlSegment_templateSegment part.kept
  single slash := by
    rcases mem_templateSegment slash with inside | brace | brace
    · exact part.single inside
    · exact absurd brace (by decide)
    · exact absurd brace (by decide)
  straight c hc := by
    rcases mem_templateSegment hc with inside | brace | brace
    · exact part.straight c inside
    · rw [brace]
      decide
    · rw [brace]
      decide

/-- What is below the API root of a URL. -/
def belowApi (u : Text) : Text := u.drop (apiRoot.length + 1)

theorem belowApi_rooted (ps : List Text) : belowApi (rooted ps) = Text.join "/" ps := by
  cases ps with
  | nil => rfl
  | cons part ps =>
      rw [rooted, ← slash_join (List.cons_ne_nil part ps), belowApi, ← List.drop_drop,
        List.drop_left]
      rfl

/-- **Every URL is made of parts.** -/
theorem url_eq_rooted (path : Text) (root : Option Text) :
    url path root = rooted (parts (belowRoot (withSlashes path) root)) := by
  refine apiRoot_join fun part mem => ?_
  obtain ⟨s, hs, rfl⟩ := List.mem_map.mp mem
  have kept := isUrlSegment_templateSegment (List.mem_filter.mp hs).2
  exact (isUrlSegment_iff.mp kept).1

/-! ### What Is Left of a Path -/

theorem afterSegment?_suffix (h : afterSegment? t = some r) : r <:+ t := by
  cases t with
  | nil =>
      cases h
      exact List.suffix_rfl
  | cons c t =>
      simp only [afterSegment?] at h
      split_ifs at h
      · cases h
        exact List.suffix_cons c _
      · cases h
        exact List.suffix_rfl

theorem afterPart?_suffix {part : Text} (h : afterPart? part t = some r) :
    r <:+ t ∧ r.length + part.length ≤ t.length := by
  rw [afterPart?] at h
  split_ifs at h with begins
  have suffix := afterSegment?_suffix h
  have shorter := suffix.length_le
  have fits := (List.isPrefixOf_iff_prefix.mp begins).length_le
  rw [List.length_drop] at shorter
  exact ⟨suffix.trans (List.drop_suffix _ t), by omega⟩

/-- What follows an anchor is shorter than the path by the anchor. -/
theorem afterAnchor?_suffix {atSegment : Bool} (h : afterAnchor? atSegment t = some r) :
    r <:+ t ∧ r.length + ("app/api" : Text).length ≤ t.length := by
  induction t generalizing atSegment with
  | nil => cases h
  | cons c t ih =>
      rw [afterAnchor?] at h
      split at h
      · next here =>
        cases h
        split_ifs at here
        exact afterPart?_suffix here
      · split_ifs at h
        obtain ⟨suffix, shorter⟩ := ih h
        exact ⟨suffix.trans (List.suffix_cons c t), Nat.le_succ_of_le shorter⟩

theorem afterTemplateRoot?_suffix (h : afterTemplateRoot? t = some r) : r <:+ t := by
  cases t with
  | nil => cases h
  | cons c t =>
      rw [afterTemplateRoot?] at h
      split_ifs at h
      · exact (afterPart?_suffix h).1.trans (List.suffix_cons c t)
      · exact (afterPart?_suffix h).1

/-- What is below the root is the end of the path. -/
theorem belowRoot_suffix (path : Text) (root : Option Text) : belowRoot path root <:+ path := by
  unfold belowRoot
  split
  · next found => exact (afterAnchor?_suffix found).1
  · split
    · next found => exact afterTemplateRoot?_suffix found
    · cases root with
      | none => exact List.suffix_rfl
      | some root =>
          dsimp only
          split
          · exact List.drop_suffix _ path
          · exact List.suffix_rfl

theorem afterName?_suffix {names : List Text} (h : afterName? names t = some r) : r <:+ t := by
  rw [afterName?] at h
  split_ifs at h with listed ended
  · cases h
    exact List.nil_suffix
  · cases h
    obtain ⟨name, -, eq⟩ := List.any_eq_true.mp ended
    rw [eq_of_beq eq]
    exact List.suffix_append name _

theorem dropNameBelow_sublist (names : List Text) (t : Text) : (dropNameBelow names t).Sublist t := by
  induction t with
  | nil => exact List.Sublist.refl []
  | cons c t ih =>
      rw [dropNameBelow]
      split
      · next found =>
        split_ifs at found
        exact (afterName?_suffix found).sublist.trans (List.sublist_cons_self c t)
      · exact ih.cons_cons c

/-- A dropped name takes nothing else of the text away. -/
theorem dropName_sublist (names : List Text) (t : Text) : (dropName names t).Sublist t := by
  rw [dropName]
  split
  · next found => exact (afterName?_suffix found).sublist
  · exact dropNameBelow_sublist names t

/-- **A path becomes no longer** below the API root. -/
theorem length_join_parts_le (below : Text) :
    (Text.join "/" (parts below)).length ≤
      (dropName ["index"] (dropName handlerNames below)).length := by
  have whole := Text.join_splitOn '/' (dropName ["index"] (dropName handlerNames below))
  exact (Text.length_join_map_filter_le _ length_templateSegment_le _).trans_eq
    (congrArg List.length whole)

/-- **The parts of a URL are parts.** -/
theorem isPart_of_mem_parts {below : Text} (straight : ∀ c ∈ below, c.val ≠ 0x5C)
    (mem : t ∈ parts below) : IsPart t := by
  obtain ⟨s, hs, rfl⟩ := List.mem_map.mp mem
  obtain ⟨piece, kept⟩ := List.mem_filter.mp hs
  refine IsPart.templateSegment ⟨kept, Text.not_mem_of_mem_splitOn piece, fun c hc => ?_⟩
  have whole : c ∈ dropName ["index"] (dropName handlerNames below) := by
    rw [← Text.join_splitOn '/' (dropName ["index"] (dropName handlerNames below))]
    exact Text.mem_join_of_mem piece hc
  exact straight c (((dropName_sublist _ _).trans (dropName_sublist _ _)).subset whole)

theorem isPart_of_mem_parts_belowRoot (mem : t ∈ parts (belowRoot (withSlashes path) root)) :
    IsPart t := by
  refine isPart_of_mem_parts (fun c hc => ?_) mem
  obtain ⟨d, -, rfl⟩ := List.mem_map.mp ((belowRoot_suffix _ root).subset hc)
  split
  · decide
  · next other => simpa using other

/-! ### Settled Templates -/

/-- The templates in which no rewrite finds anything. -/
structure Settled (u : Text) : Prop where
  /-- No pair `app/api` is found. -/
  anchor : afterAnchor? true u = none
  /-- The last segment is no name of a handler file. -/
  handler : dropName handlerNames (belowApi u) = belowApi u
  /-- The last segment is not `index`. -/
  index : dropName ["index"] (belowApi u) = belowApi u
  /-- No segment has a bracketed name. -/
  unbracketed : ∀ s ∈ (belowApi u).splitOn '/', templateSegment s = s

theorem splitOn_join_parts (ne : ps ≠ []) (hp : ∀ part ∈ ps, IsPart part) :
    (Text.join "/" ps).splitOn '/' = ps :=
  Text.splitOn_join ne fun t ht _ hc eq => (hp t ht).single (eq ▸ hc)

/-- The parts of a path that is joined from parts are looked for in these. -/
theorem filter_splitOn_join (hp : ∀ part ∈ ps, IsPart part) :
    ((Text.join "/" ps).splitOn '/').filter isUrlSegment = ps := by
  cases ps with
  | nil => rfl
  | cons part ps =>
      rw [splitOn_join_parts (List.cons_ne_nil part ps) hp, List.filter_eq_self]
      exact fun t ht => (hp t ht).kept

/-- The pieces of a path that is joined from parts are the parts, or the one empty piece. -/
theorem forall_splitOn_join_iff (hp : ∀ part ∈ ps, IsPart part) :
    (∀ s ∈ (Text.join "/" ps).splitOn '/', templateSegment s = s) ↔
      ps.map templateSegment = ps := by
  cases ps with
  | nil =>
      refine iff_of_true (fun s mem => ?_) rfl
      rw [List.mem_singleton.mp mem]
      rfl
  | cons part ps =>
      rw [splitOn_join_parts (List.cons_ne_nil part ps) hp]
      have pointwise := List.map_inj_left (f := templateSegment) (g := fun s => s)
        (l := part :: ps)
      rw [List.map_id'] at pointwise
      exact pointwise.symm

/-- The API root of a URL is found at its beginning. -/
theorem afterTemplateRoot?_rooted (ps : List Text) :
    afterTemplateRoot? (rooted ps) = some (Text.join "/" ps) := by
  cases ps with
  | nil => rfl
  | cons part ps =>
      rw [rooted, ← slash_join (List.cons_ne_nil part ps)]
      rfl

/-- Below the API root of a URL are its parts, unless an anchor is found in it. -/
theorem belowRoot_rooted_parts (hp : ∀ part ∈ ps, IsPart part) (root : Option Text) :
    belowRoot (withSlashes (rooted ps)) root =
      (afterAnchor? true (rooted ps)).getD (Text.join "/" ps) := by
  have straight : withSlashes (rooted ps) = rooted ps := by
    refine withSlashes_eq_self fun c hc => ?_
    rcases List.mem_append.mp hc with hc | hc
    · have root : apiRoot.all (fun c => c.val != 0x5C) = true := by decide
      simpa using List.all_eq_true.mp root c hc
    · obtain ⟨part, mem, hc⟩ := List.mem_flatMap.mp hc
      rcases List.mem_cons.mp hc with rfl | hc
      · decide
      · exact (hp part mem).straight c hc
  rw [straight]
  cases found : afterAnchor? true (rooted ps) with
  | none => simp only [belowRoot, found, afterTemplateRoot?_rooted, Option.getD_none]
  | some rest => simp only [belowRoot, found, Option.getD_some]

/-- Names that are dropped one after the other are dropped if one of them is. -/
theorem dropName_dropName_eq_self {names more : List Text}
    (long : t.length ≤ (dropName more (dropName names t)).length) :
    dropName names t = t ∧ dropName more t = t := by
  have first := dropName_sublist names t
  have second := dropName_sublist more (dropName names t)
  have same : dropName names t = t := first.eq_of_length_le (long.trans second.length_le)
  rw [same] at second long
  exact ⟨same, second.eq_of_length_le long⟩

/-- The parts of a path that is joined from parts become what each of them becomes. -/
theorem parts_join (hp : ∀ part ∈ ps, IsPart part)
    (handler : dropName handlerNames (Text.join "/" ps) = Text.join "/" ps)
    (index : dropName ["index"] (Text.join "/" ps) = Text.join "/" ps) :
    parts (Text.join "/" ps) = ps.map templateSegment := by
  rw [parts, handler, index, filter_splitOn_join hp]

/-- **A URL is its own URL exactly if it is settled.** -/
theorem url_rooted_iff (hp : ∀ part ∈ ps, IsPart part) (root : Option Text) :
    url (rooted ps) root = rooted ps ↔ Settled (rooted ps) := by
  have below := belowApi_rooted ps
  rw [url_eq_rooted, belowRoot_rooted_parts hp]
  constructor
  · intro same
    have joined := congrArg belowApi same
    rw [belowApi_rooted, below] at joined
    have long := length_join_parts_le ((afterAnchor? true (rooted ps)).getD (Text.join "/" ps))
    rw [joined] at long
    cases found : afterAnchor? true (rooted ps) with
    | some rest =>
        -- What follows an anchor is too short to have the parts in it.
        rw [found, Option.getD_some] at long
        have dropped := ((dropName_sublist ["index"] _).trans
          (dropName_sublist handlerNames rest)).length_le
        have shorter := (afterAnchor?_suffix found).2
        rw [← below, belowApi, List.length_drop] at long
        change rest.length + 7 ≤ _ at shorter
        change (rooted ps).length - 5 ≤ _ at long
        omega
    | none =>
        rw [found, Option.getD_none] at long joined
        obtain ⟨handler, index⟩ := dropName_dropName_eq_self long
        rw [parts_join hp handler index] at joined
        refine ⟨found, below ▸ handler, below ▸ index, ?_⟩
        rw [below, forall_splitOn_join_iff hp]
        have hp' : ∀ part ∈ ps.map templateSegment, IsPart part := by
          intro part mem
          obtain ⟨s, hs, rfl⟩ := List.mem_map.mp mem
          exact (hp s hs).templateSegment
        rw [← filter_splitOn_join hp', joined, filter_splitOn_join hp]
  · intro settled
    have handler := settled.handler
    have index := settled.index
    have unbracketed := settled.unbracketed
    rw [below] at handler index unbracketed
    rw [settled.anchor, Option.getD_none, parts_join hp handler index,
      (forall_splitOn_join_iff hp).mp unbracketed]

/-! ### Templates of Well-Formed Routes -/

variable {segs : List Segment}

/-- Where nothing comes after `app/api`, the pair is not there. -/
theorem afterAppApi?_eq_none_iff {ts : List Text} : afterAppApi? ts = none ↔ ¬Anchored ts := by
  refine ⟨fun absent => ?_, afterAppApi?_eq_none⟩
  induction ts with
  | nil => decide
  | cons a ts ih =>
      intro anchored
      cases ts with
      | nil => exact absurd anchored.length_le (by simp [appApi])
      | cons b ts =>
          have other : ¬("app" = a ∧ "api" = b) := by
            rintro ⟨rfl, rfl⟩
            cases absent
          rw [afterAppApi?_cons_cons other] at absent
          rcases List.infix_cons_iff.mp anchored with ⟨rest, eq⟩ | later
          · obtain ⟨first, eq⟩ := List.cons.inj eq
            exact other ⟨first, (List.cons.inj eq).1⟩
          · exact ih absent later

/-- No anchor is found in a URL exactly if its parts have no pair `app/api`. -/
theorem afterAnchor?_rooted_eq_none_iff (plain : ∀ part ∈ ps, Plain part) :
    afterAnchor? true (rooted ps) = none ↔ ¬Anchored ps := by
  have whole : rooted ps = ('/' : CodePoint) :: Text.join "/" (("api" : Text) :: ps) :=
    (slash_join (List.cons_ne_nil ("api" : Text) ps)).symm
  have plain' : ∀ part ∈ (("api" : Text) :: ps), Plain part := by
    rintro part (_ | ⟨_, mem⟩)
    · decide
    · exact plain part mem
  have root : Anchored (("api" : Text) :: ps) ↔ Anchored ps := by
    refine ⟨fun anchored => ?_, fun anchored => anchored.trans (List.suffix_cons _ ps).isInfix⟩
    rcases List.infix_cons_iff.mp anchored with ⟨rest, eq⟩ | later
    · exact absurd (List.cons.inj eq).1 (by decide)
    · exact later
  rw [whole, afterAnchor?_slash, afterAnchor?_join plain', Option.map_eq_none_iff,
    afterAppApi?_eq_none_iff, root]

/-- A last segment is kept exactly if it is none of the names. -/
theorem dropName_join_eq_self_iff (names : List Text) (single : ∀ name ∈ names, Plain name)
    (plain : ∀ part ∈ ps, Plain part) (nonempty : ∀ part ∈ ps, part ≠ []) :
    dropName names (Text.join "/" ps) = Text.join "/" ps ↔
      ∀ last ∈ ps.getLast?, last ∉ names := by
  rcases List.eq_nil_or_concat ps with rfl | ⟨before, t, rfl⟩
  · exact iff_of_true (List.sublist_nil.mp (dropName_sublist names [])) nofun
  · rw [List.concat_eq_append] at plain nonempty ⊢
    have last : t ∈ before ++ [t] := by simp
    rw [dropName_join single (fun u hu => plain u (List.mem_append_left _ hu)) (plain t last),
      List.getLast?_concat]
    by_cases listed : t ∈ names
    · refine iff_of_false (fun same => ?_) fun kept => kept t rfl listed
      rw [if_pos listed] at same
      have length := congrArg List.length same
      have pos := List.length_pos_iff.mpr (nonempty t last)
      rw [show ("/" : Text) = [('/' : CodePoint)] from rfl, Text.join_eq_tail, Text.join_eq_tail,
        List.flatMap_append, List.flatMap_singleton, List.length_tail, List.length_tail,
        List.length_append, List.length_cons] at length
      omega
    · rw [if_neg listed]
      refine iff_of_true rfl fun u here => ?_
      exact Option.some.inj here ▸ listed

/-- What a URL has for a well-formed segment is a part without brackets. -/
theorem isPart_of_part? {s : Segment} (wf : s.WellFormed) (kept : s.part? = some t) :
    IsPart t ∧ Plain t ∧ ('[' : CodePoint) ∉ t := by
  have part : isUrlSegment t = true → Plain t → IsPart t := fun kept plain =>
    ⟨kept, fun mem => (plain _ mem).1 rfl, fun c hc => (plain c hc).2.1⟩
  cases s with
  | fixed name =>
      cases kept
      have plain : Plain t := wf.2.2.1
      exact ⟨part (isUrlSegment_text wf) plain, plain, fun mem => (wf.2.2.2.1 _ mem).1 rfl⟩
  | dynamic form name =>
      cases kept
      obtain ⟨-, plain, unmarked, -⟩ := wf
      have braced : Plain ("\x7b" ++ name ++ "\x7d") :=
        (Plain.append (by decide) plain).append (by decide)
      refine ⟨part ?_ braced, braced, fun mem => ?_⟩
      · rw [isUrlSegment_iff, isGroup_iff]
        refine ⟨List.cons_ne_nil _ _, fun dot => ?_, fun group => ?_⟩
        · exact absurd (List.cons.inj dot).1 (by decide)
        · exact absurd (Option.some.inj group.1) (by decide)
      · rcases List.mem_append.mp mem with mem | mem
        · rcases List.mem_append.mp mem with mem | mem
          · exact absurd mem (by decide)
          · exact (unmarked _ mem).1 rfl
        · exact absurd mem (by decide)
  | group name => cases kept

/-- **The settled templates of well-formed routes** are those without a pair `app/api` whose last
part is neither `index` nor the name of a handler file. -/
theorem settled_template_iff (wf : ∀ s ∈ segs, s.WellFormed) :
    Settled (template segs) ↔
      ¬Anchored (segs.filterMap Segment.part?) ∧
        ∀ last ∈ (segs.filterMap Segment.part?).getLast?,
          last ≠ "index" ∧ last ∉ handlerNames := by
  have parts : ∀ part ∈ segs.filterMap Segment.part?,
      IsPart part ∧ Plain part ∧ ('[' : CodePoint) ∉ part := by
    intro part mem
    obtain ⟨s, hs, kept⟩ := List.mem_filterMap.mp mem
    exact isPart_of_part? (wf s hs) kept
  have whole : template segs = rooted (segs.filterMap Segment.part?) := rfl
  rw [whole]
  generalize segs.filterMap Segment.part? = ps at parts ⊢
  have plain : ∀ part ∈ ps, Plain part := fun part mem => (parts part mem).2.1
  have nonempty : ∀ part ∈ ps, part ≠ [] := fun part mem =>
    (isUrlSegment_iff.mp (parts part mem).1.kept).1
  have anchor := afterAnchor?_rooted_eq_none_iff plain
  have handler := dropName_join_eq_self_iff handlerNames (by decide) plain nonempty
  have index := dropName_join_eq_self_iff ["index"] (by decide) plain nonempty
  have same : ps.map templateSegment = ps := by
    rw [List.map_congr_left fun part mem => templateSegment_of_not_mem (parts part mem).2.2,
      List.map_id']
  have unbracketed := (forall_splitOn_join_iff fun part mem => (parts part mem).1).mpr same
  constructor
  · intro settled
    have noHandler := settled.handler
    have noIndex := settled.index
    rw [belowApi_rooted] at noHandler noIndex
    refine ⟨anchor.mp settled.anchor, fun last here => ⟨?_, handler.mp noHandler last here⟩⟩
    exact fun eq => index.mp noIndex last here (List.mem_singleton.mpr eq)
  · rintro ⟨apart, other⟩
    refine ⟨anchor.mpr apart, ?_, ?_, ?_⟩
    · rw [belowApi_rooted]
      exact handler.mpr fun last here => (other last here).2
    · rw [belowApi_rooted]
      exact index.mpr fun last here eq => (other last here).1 (List.mem_singleton.mp eq)
    · rw [belowApi_rooted]
      exact unbracketed

/-! ### URLs of URLs -/

/-- **The URL of a path is its own URL exactly if it is settled**, whatever roots are given.  The
URLs of well-formed routes are settled unless `api` follows `app` in them or they end in `index` or
the name of a handler file. -/
theorem url_url_iff (path : Text) (root root' : Option Text) :
    (url (url path root) root' = url path root ↔ Settled (url path root)) ∧
    ∀ segs : List Segment, (∀ s ∈ segs, s.WellFormed) →
      ((∀ root, url (template segs) root = template segs) ↔
        ¬Anchored (segs.filterMap Segment.part?) ∧
          ∀ last ∈ (segs.filterMap Segment.part?).getLast?,
            last ≠ "index" ∧ last ∉ handlerNames) := by
  constructor
  · rw [url_eq_rooted path root]
    exact url_rooted_iff (fun part mem => isPart_of_mem_parts_belowRoot mem) root'
  · intro segs wf
    have parts : ∀ part ∈ segs.filterMap Segment.part?, IsPart part := by
      intro part mem
      obtain ⟨s, hs, kept⟩ := List.mem_filterMap.mp mem
      exact (isPart_of_part? (wf s hs) kept).1
    rw [← settled_template_iff wf]
    exact ⟨fun same => (url_rooted_iff parts none).mp (same none),
      fun settled root => (url_rooted_iff parts root).mpr settled⟩

/-- The URL of a handler below a second pair `app/api` is not its own URL. -/
theorem url_url_ne :
    let file : Text := "src/app/api/proxy/app/api/users/route.ts"
    url file none = "/api/proxy/app/api/users" ∧ url (url file none) none = "/api/users" ∧
      url (url file none) none ≠ url file none := by
  decide +kernel

end Route

end RouteDocs
