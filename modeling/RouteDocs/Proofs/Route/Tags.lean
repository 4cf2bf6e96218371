import RouteDocs.Proofs.Route.Canonical

/-!
# The Tag, the Category and the URL Agree

The tag of a handler file is read off the segments of its path, its URL is what is left of the path
when it is rewritten, and its category is read off the URL.  For a file below `app/api` all three
tell the first directory that is not a group.

## Main Definitions

* `Route.IsDirectoryName`: the names of directories that are kept as they are, groups included

## Main Statements

* `Route.tags_path`: the tag is the first of the directories that are not groups
* `Route.url_path`: the URL is made of the directories that are not groups
* `Route.tags_eq_category`: **the tag, the category and the URL agree**

## Design Notes

The two readers of a path are not compared with each other.  Each of them is shown to go by the
list of the directories that are not groups, from which the tag, the category and the first segment
of the URL are taken alike.
-/

namespace RouteDocs

namespace Route

/-- **The names of directories that are kept as they are**: one segment without brackets and braces
that is neither the directory itself nor a handler file.  Groups are among them. -/
structure IsDirectoryName (t : Text) : Prop where
  /-- It is not empty. -/
  nonempty : t ≠ []
  /-- It is a single segment. -/
  plain : Plain t
  /-- It has neither brackets nor braces. -/
  unmarked : Unmarked t
  /-- It is not the directory itself. -/
  elsewhere : t ≠ "."
  /-- It is not the name of a handler file. -/
  unhandled : t ∉ handlerNames

/-- The names of directories, condition by condition. -/
theorem isDirectoryName_iff {t : Text} : IsDirectoryName t ↔
    t ≠ [] ∧ Plain t ∧ Unmarked t ∧ t ≠ "." ∧ handlerNames.contains t = false := by
  have listed : t ∉ handlerNames ↔ handlerNames.contains t = false := by simp
  rw [← listed]
  constructor
  · intro name
    exact ⟨name.nonempty, name.plain, name.unmarked, name.elsewhere, name.unhandled⟩
  · rintro ⟨nonempty, plain, unmarked, elsewhere, unhandled⟩
    exact ⟨nonempty, plain, unmarked, elsewhere, unhandled⟩

instance (t : Text) : Decidable (IsDirectoryName t) :=
  decidable_of_iff _ isDirectoryName_iff.symm

/-- The names that are not groups, in order. -/
def ungrouped (names : List Text) : List Text :=
  names.filter fun name => !isGroup name

variable {dir : Directory} {names below : List Text} {handler s : Text}

/-! ### What Is Not a Group -/

theorem ungrouped_eq_nil (groups : ∀ name ∈ names, Grouping name) : ungrouped names = [] := by
  refine List.filter_eq_nil_iff.mpr fun name mem kept => ?_
  rw [isGroup_iff_grouping.mpr (groups name mem)] at kept
  cases kept

theorem ungrouped_append_cons (groups : ∀ name ∈ names, Grouping name) (other : ¬Grouping s)
    (after : List Text) : ungrouped (names ++ s :: after) = s :: ungrouped after := by
  have kept : (!isGroup s) = true := by
    rw [Bool.not_eq_true', Bool.eq_false_iff]
    exact mt isGroup_iff_grouping.mp other
  have before := ungrouped_eq_nil groups
  unfold ungrouped at before ⊢
  rw [List.filter_append, before, List.nil_append]
  exact List.filter_cons_of_pos kept

/-! ### The Tag -/

/-- **The first tag** before a handler file is the first name that is not a group. -/
theorem firstTag_concat (unhandled : ∀ name ∈ names, name ∉ handlerNames)
    (named : handler ∈ handlerNames) :
    firstTag (names ++ [handler]) = (ungrouped names).head?.toList := by
  induction names with
  | nil =>
      have listed : handlerNames.contains handler = true := List.contains_iff_mem.mpr named
      rw [List.nil_append, firstTag, listed]
      rfl
  | cons name names ih =>
      have absent : handlerNames.contains name = false := by
        simpa using unhandled name List.mem_cons_self
      have rest := ih fun name mem => unhandled name (List.mem_cons_of_mem _ mem)
      rw [List.cons_append, firstTag, absent, if_neg Bool.false_ne_true]
      unfold ungrouped at rest ⊢
      cases group : isGroup name with
      | true => rw [if_pos rfl, rest, List.filter_cons_of_neg (by simp [group])]
      | false =>
          rw [if_neg Bool.false_ne_true, List.filter_cons_of_pos (by simp [group])]
          rfl

/-- The segments of a path that are not empty are those of its directory and those below it. -/
theorem Directory.filter_splitOn_path (wf : dir.WellFormed)
    (plain : ∀ t ∈ below, t ≠ [] ∧ Plain t) (ne : below ≠ []) :
    ((withSlashes (dir.path below)).splitOn '/').filter (fun part => !part.isEmpty) =
      dir.names ++ below := by
  have plain' := plain_of_wellFormed wf fun t mem => (plain t mem).2
  have joined : (Text.join "/" (dir.names ++ below)).splitOn '/' = dir.names ++ below :=
    splitOn_join_slash (List.append_ne_nil_of_right_ne_nil _ ne) plain'
  have kept : (dir.names ++ below).filter (fun part => !part.isEmpty) = dir.names ++ below := by
    refine List.filter_eq_self.mpr fun t mem => ?_
    rw [Bool.not_eq_true', List.isEmpty_eq_false_iff]
    exact (List.mem_append.mp mem).elim (fun mem => (wf t mem).1) fun mem => (plain t mem).1
  rw [withSlashes_path wf fun t mem => (plain t mem).2, path, lead]
  cases dir.fromRoot with
  | false => exact (congrArg _ joined).trans kept
  | true =>
      -- The slash at the beginning makes an empty piece, which does not count.
      have clean : ∀ c ∈ ([] : Text), c ≠ ('/' : CodePoint) := List.forall_mem_nil _
      have pieces := Text.splitOn_append_cons clean (Text.join "/" (dir.names ++ below))
      rw [joined] at pieces
      exact (congrArg _ pieces).trans kept

theorem nonempty_plain_below (kept : ∀ name ∈ names, IsDirectoryName name)
    (named : handler ∈ handlerNames) :
    ∀ t ∈ appApi ++ (names ++ [handler]), t ≠ [] ∧ Plain t := by
  have anchor : ∀ t ∈ appApi, t ≠ [] ∧ Plain t := by decide
  have handlers : ∀ t ∈ handlerNames, t ≠ [] ∧ Plain t := by decide
  intro t mem
  rcases List.mem_append.mp mem with mem | mem
  · exact anchor t mem
  · rcases List.mem_append.mp mem with mem | mem
    · exact ⟨(kept t mem).nonempty, (kept t mem).plain⟩
    · rw [List.mem_singleton.mp mem]
      exact handlers handler named

/-- **The tag of a handler file** is the first of its directories that are not groups. -/
theorem tags_path (wf : dir.WellFormed) (apart : ¬Anchored dir.names)
    (kept : ∀ name ∈ names, IsDirectoryName name) (named : handler ∈ handlerNames) :
    tags (dir.path (appApi ++ (names ++ [handler]))) = (ungrouped names).head?.toList := by
  have below := nonempty_plain_below kept named
  have ne : appApi ++ (names ++ [handler]) ≠ [] := List.cons_ne_nil _ _
  rw [tags, Directory.filter_splitOn_path wf below ne, afterAppApi?_append apart]
  exact firstTag_concat (fun name mem => (kept name mem).unhandled) named

/-! ### The URL -/

/-- The directories before a handler file that are not groups are the parts of its URL. -/
theorem parts_join_concat (kept : ∀ name ∈ names, IsDirectoryName name)
    (named : handler ∈ handlerNames) (last : names.getLast? ≠ some ("index" : Text)) :
    parts (Text.join "/" (names ++ [handler])) = ungrouped names := by
  have plain : ∀ name ∈ names, Plain name := fun name mem => (kept name mem).plain
  have counted : names.filter isUrlSegment = ungrouped names := by
    refine List.filter_congr fun name mem => ?_
    have nonempty : name.isEmpty = false := List.isEmpty_eq_false_iff.mpr (kept name mem).nonempty
    simp [isUrlSegment, nonempty, (kept name mem).elsewhere]
  have same : ∀ name ∈ ungrouped names, templateSegment name = name := fun name mem =>
    templateSegment_unmarked (kept name (List.mem_of_mem_filter mem)).unmarked
  rw [parts, filter_splitOn_dropName plain named last, counted, List.map_congr_left same,
    List.map_id']

/-- **The URL of a handler file** is made of its directories that are not groups. -/
theorem url_path (wf : dir.WellFormed) (apart : ¬Anchored dir.names)
    (kept : ∀ name ∈ names, IsDirectoryName name) (named : handler ∈ handlerNames)
    (last : names.getLast? ≠ some ("index" : Text)) (root : Option Text) :
    url (dir.path (appApi ++ (names ++ [handler]))) root = rooted (ungrouped names) := by
  have plain : ∀ t ∈ appApi ++ (names ++ [handler]), Plain t := fun t mem =>
    (nonempty_plain_below kept named t mem).2
  rw [url_eq_rooted, Directory.withSlashes_path wf plain,
    Directory.belowRoot_anchored wf (fun t mem => plain t (List.mem_append_right _ mem)) apart,
    parts_join_concat kept named last]

/-- The URL of directory names that are not groups is canonical. -/
theorem canonical_ungrouped (kept : ∀ name ∈ names, IsDirectoryName name) :
    Canonical (ungrouped names) (rooted (ungrouped names)) := by
  refine canonical_rooted fun part mem => ?_
  obtain ⟨listed, other⟩ := List.mem_filter.mp mem
  have name := kept part listed
  refine ⟨isUrlSegment_iff.mpr ⟨name.nonempty, name.elsewhere, ?_⟩, fun slash => ?_, fun c hc => ?_⟩
  · rw [Bool.not_eq_true', Bool.eq_false_iff] at other
    exact other
  · exact (name.plain _ slash).1 rfl
  · exact (name.plain c hc).2.1

/-! ### Agreement -/

/-- **The tag, the category and the URL agree.**  Where the directories between `app/api` and a
handler file are all groups, the file has no tag and the general category; otherwise the first one
that is not a group is the only tag, the category and the first segment of the URL. -/
theorem tags_eq_category (wf : dir.WellFormed) (apart : ¬Anchored dir.names)
    (kept : ∀ name ∈ names, IsDirectoryName name) (named : handler ∈ handlerNames)
    (last : names.getLast? ≠ some ("index" : Text)) (root : Option Text) :
    let file := dir.path (appApi ++ (names ++ [handler]))
    ((∀ name ∈ names, Grouping name) →
      tags file = [] ∧ Endpoint.categoryOf (url file root) = "general") ∧
    ∀ before s after, names = before ++ s :: after → (∀ name ∈ before, Grouping name) →
      ¬Grouping s →
        tags file = [s] ∧ Endpoint.categoryOf (url file root) = s ∧
          ∃ more, url file root = rooted (s :: more) := by
  intro file
  have tag : tags file = (ungrouped names).head?.toList := tags_path wf apart kept named
  have url : url file root = rooted (ungrouped names) := url_path wf apart kept named last root
  have category := (canonical_ungrouped kept).categoryOf_eq
  rw [← url] at category
  constructor
  · intro groups
    rw [ungrouped_eq_nil groups] at tag category
    exact ⟨tag, category⟩
  · intro before s after split groups other
    rw [split, ungrouped_append_cons groups other after] at tag category url
    exact ⟨tag, category, ungrouped after, url⟩

/-- Directories below a group, the first of which is the second half of the pair `app/api`. -/
def ownSegments : List Text := ["(own)", "api", "(all)", "users"]

theorem tags_eq_category_own : appDirectory.WellFormed ∧ ¬Anchored appDirectory.names ∧
    (∀ name ∈ ownSegments, IsDirectoryName name) ∧ ("route.js" : Text) ∈ handlerNames ∧
    ownSegments.getLast? ≠ some ("index" : Text) ∧ Grouping "(own)" ∧ ¬Grouping "api" ∧
    tags "/srv/app/app/api/(own)/api/(all)/users/route.js" = ["api"] ∧
    Endpoint.categoryOf (url "/srv/app/app/api/(own)/api/(all)/users/route.js" none) = "api" ∧
    tags "/srv/app/app/api/(own)/route.js" = [] := by
  have wf : appDirectory.WellFormed := by decide
  have apart : ¬Anchored appDirectory.names := by decide
  have kept : ∀ name ∈ ownSegments, IsDirectoryName name := by decide
  have named : ("route.js" : Text) ∈ handlerNames := by decide
  have last : ownSegments.getLast? ≠ some ("index" : Text) := by decide
  have group : Grouping "(own)" := ⟨"own", rfl⟩
  have other : ¬Grouping "api" := mt isGroup_iff_grouping.mpr (by decide)
  have first : ∀ name ∈ [("(own)" : Text)], Grouping name := by
    intro name mem
    rw [List.mem_singleton.mp mem]
    exact group
  obtain ⟨tag, category, -⟩ := (tags_eq_category wf apart kept named last none).2
    ["(own)"] "api" ["(all)", "users"] rfl first other
  have alone : ∀ name ∈ [("(own)" : Text)], IsDirectoryName name := by decide
  have untagged := ((tags_eq_category wf apart alone named (by decide) none).1 first).1
  exact ⟨wf, apart, kept, named, last, group, other, tag, category, untagged⟩

end Route

end RouteDocs
