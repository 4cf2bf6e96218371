import Mathlib.Order.Fin.Basic
import RouteDocs.Proofs.Text.Join
import RouteDocs.Route.Url

/-!
# Paths as Lists of Segments

A path is the text of its segments, with slashes between them. What is cut off a path is told by
its segments.

## Main Definitions

* `Route.Plain`: the texts that are a single segment
* `Route.Directory`: a directory, from the root of the file system or not
* `Route.Directory.path`: the path of segments below a directory

## Main Statements

* `Route.afterAnchor?_join`: the path after `app/api` has the segments after `app` and `api`
* `Route.Directory.belowRoot_anchored`: a directory before `app/api` does not count
* `Route.Directory.belowRoot_rooted`: what is left below a root directory
* `Route.dropName_join`: a last segment of some names is dropped, another one is not

## Design Notes

The functions on paths walk code point by code point. Each has one lemma for a segment that is
passed over, from which the law for the whole path follows by induction on the segments.
-/

namespace RouteDocs

namespace Route

/-! ### Segments and Slashes -/

/-- The texts without slashes, backslashes and line feeds, which are a single segment. -/
def Plain (t : Text) : Prop :=
  ∀ c ∈ t, c ≠ ('/' : CodePoint) ∧ c.val ≠ 0x5C ∧ c ≠ ('\n' : CodePoint)

instance (t : Text) : Decidable (Plain t) :=
  List.decidableBAll _ t

variable {t u x : Text} {c : CodePoint} {ts more : List Text}

theorem Plain.head (h : Plain (c :: t)) :
    c ≠ ('/' : CodePoint) ∧ c.val ≠ 0x5C ∧ c ≠ ('\n' : CodePoint) :=
  h c (by simp)

theorem Plain.tail (h : Plain (c :: t)) : Plain t :=
  fun d hd => h d (List.mem_cons_of_mem _ hd)

theorem Plain.append (ht : Plain t) (hu : Plain u) : Plain (t ++ u) := by
  intro c hc
  rcases List.mem_append.mp hc with hc | hc
  · exact ht c hc
  · exact hu c hc

theorem join_slash_singleton (t : Text) : Text.join "/" [t] = t := rfl

/-- A first segment is followed by a slash and the path of the other ones. -/
theorem join_slash_cons (t : Text) (ne : more ≠ []) :
    Text.join "/" (t :: more) = t ++ ('/' : CodePoint) :: Text.join "/" more := by
  obtain ⟨u, more, rfl⟩ := List.exists_cons_of_ne_nil ne
  exact Text.join_cons_cons "/" t u more

/-- Two paths one below the other are joined by a slash. -/
theorem join_slash_append (ne : ts ≠ []) (ne' : more ≠ []) :
    Text.join "/" (ts ++ more) = Text.join "/" ts ++ ('/' : CodePoint) :: Text.join "/" more := by
  induction ts with
  | nil => exact absurd rfl ne
  | cons t ts ih =>
      rw [List.cons_append, join_slash_cons t (List.append_ne_nil_of_right_ne_nil _ ne')]
      cases ts with
      | nil => rfl
      | cons u ts =>
          rw [ih (List.cons_ne_nil u ts), join_slash_cons t (List.cons_ne_nil u ts),
            List.append_assoc]
          rfl

/-- A path ends with its last segment. -/
theorem exists_join_concat (ts : List Text) (t : Text) :
    ∃ x, Text.join "/" (ts ++ [t]) = x ++ t := by
  cases ts with
  | nil => exact ⟨[], rfl⟩
  | cons a ts =>
      refine ⟨Text.join "/" (a :: ts) ++ "/", ?_⟩
      rw [join_slash_append (List.cons_ne_nil a ts) (List.cons_ne_nil t []), List.append_assoc]
      rfl

theorem splitOn_join_slash (ne : ts ≠ []) (plain : ∀ t ∈ ts, Plain t) :
    (Text.join "/" ts).splitOn '/' = ts :=
  Text.splitOn_join ne fun t ht c hc => (plain t ht c hc).1

/-- A text without backslashes has no slashes for them. -/
theorem withSlashes_eq_self (h : ∀ c ∈ t, c.val ≠ 0x5C) : withSlashes t = t := by
  have keep : ∀ c ∈ t, (if c.val == 0x5C then ('/' : CodePoint) else c) = c :=
    fun c hc => if_neg (by simpa using h c hc)
  rw [withSlashes, List.map_congr_left keep, List.map_id']

/-- What may follow a segment: the end, or a slash. -/
def Boundary (x : Text) : Prop :=
  x = [] ∨ ∃ y, x = ('/' : CodePoint) :: y

/-! ### Given Beginnings -/

/-- **A given beginning is compared segment by segment.** -/
theorem afterPart?_append {p : Text} (ht : Plain t) (hu : Plain u) (hp : Boundary p)
    (hx : Boundary x) :
    afterPart? (t ++ p) (u ++ x) = if t = u then afterPart? p x else none := by
  induction t generalizing u with
  | nil =>
      cases u with
      | nil => rfl
      | cons d u =>
          obtain ⟨slash, -, feed⟩ := hu.head
          rcases hp with rfl | ⟨v, rfl⟩
          · simp [afterPart?, afterSegment?, slash, feed]
          · simp [afterPart?, Ne.symm slash]
  | cons c t ih =>
      cases u with
      | nil =>
          rcases hx with rfl | ⟨y, rfl⟩
          · simp [afterPart?]
          · simp [afterPart?, ht.head.1]
      | cons d u =>
          have step := ih ht.tail hu.tail
          by_cases same : c = d
          · subst same
            simpa [afterPart?] using step
          · simp [afterPart?, same]

theorem boundary_join (ts : List Text) (t : Text) :
    ∃ x, Text.join "/" (t :: ts) = t ++ x ∧ Boundary x ∧
      afterSegment? x = some (Text.join "/" ts) := by
  cases ts with
  | nil => exact ⟨[], by simp [join_slash_singleton], .inl rfl, rfl⟩
  | cons u more =>
      exact ⟨_, join_slash_cons t (List.cons_ne_nil u more), .inr ⟨_, rfl⟩, by simp [afterSegment?]⟩

/-- A given segment is the beginning of a path if it is its first segment. -/
theorem afterPart?_join (ht : Plain t) (hu : Plain u) (more : List Text) :
    afterPart? t (Text.join "/" (u :: more)) =
      if t = u then some (Text.join "/" more) else none := by
  obtain ⟨x, eq, boundary, after⟩ := boundary_join more u
  have step := afterPart?_append ht hu (.inl rfl) boundary
  rw [List.append_nil] at step
  rw [eq, step, ← after]
  rfl

/-- A pair of given segments is the beginning of a path if it is its first pair. -/
theorem afterPart?_pair {v a b : Text} (ht : Plain t) (hv : Plain v) (ha : Plain a) (hb : Plain b)
    (more : List Text) :
    afterPart? (t ++ ('/' : CodePoint) :: v) (Text.join "/" (a :: b :: more)) =
      if t = a ∧ v = b then some (Text.join "/" more) else none := by
  have below : afterPart? (('/' : CodePoint) :: v)
      (('/' : CodePoint) :: Text.join "/" (b :: more)) =
        afterPart? v (Text.join "/" (b :: more)) := by
    simp [afterPart?]
  rw [join_slash_cons a (List.cons_ne_nil b more),
    afterPart?_append ht ha (.inr ⟨v, rfl⟩) (.inr ⟨_, rfl⟩), below, afterPart?_join hv hb more]
  by_cases first : t = a <;> simp [first]

/-- A pair of segments is not the beginning of a single one. -/
theorem afterPart?_single {v a : Text} (ht : Plain t) (ha : Plain a) :
    afterPart? (t ++ ('/' : CodePoint) :: v) a = none := by
  have step := afterPart?_append ht ha (.inr ⟨v, rfl⟩) (.inl rfl)
  rw [List.append_nil] at step
  rw [step]
  split <;> rfl

/-! ### The Anchor -/

/-- A code point at which no anchor begins is passed over. -/
theorem afterAnchor?_cons (atSegment : Bool) (r : Text) (feed : c ≠ ('\n' : CodePoint))
    (absent : atSegment = true → afterPart? "app/api" (c :: r) = none) :
    afterAnchor? atSegment (c :: r) = afterAnchor? (c == ('/' : CodePoint)) r := by
  rw [afterAnchor?]
  cases atSegment with
  | false => simp [feed]
  | true => simp [feed, absent rfl]

/-- The rest of a segment in which the search has begun is passed over. -/
theorem afterAnchor?_append (ht : Plain t) (x : Text) :
    afterAnchor? false (t ++ x) = afterAnchor? false x := by
  induction t with
  | nil => rfl
  | cons c t ih =>
      obtain ⟨slash, -, feed⟩ := ht.head
      rw [List.cons_append, afterAnchor?_cons false _ feed nofun, beq_false_of_ne slash]
      exact ih ht.tail

/-- No anchor begins at a slash. -/
theorem afterAnchor?_slash (atSegment : Bool) (r : Text) :
    afterAnchor? atSegment (('/' : CodePoint) :: r) = afterAnchor? true r :=
  afterAnchor?_cons atSegment r (by decide) fun _ => rfl

/-- A segment at which no anchor begins is passed over. -/
theorem afterAnchor?_skip (ht : Plain t) (hx : Boundary x)
    (absent : afterPart? "app/api" (t ++ x) = none) :
    afterAnchor? true (t ++ x) = afterAnchor? false x := by
  cases t with
  | nil =>
      rcases hx with rfl | ⟨y, rfl⟩
      · rfl
      · exact (afterAnchor?_slash true y).trans (afterAnchor?_slash false y).symm
  | cons c t =>
      obtain ⟨slash, -, feed⟩ := ht.head
      rw [List.cons_append] at absent ⊢
      rw [afterAnchor?_cons true _ feed fun _ => absent, beq_false_of_ne slash]
      exact afterAnchor?_append ht.tail x

theorem afterAnchor?_of_some {r rest : Text} (found : afterPart? "app/api" r = some rest) :
    afterAnchor? true r = some rest := by
  cases r with
  | nil => cases (show afterPart? "app/api" [] = none from rfl).symm.trans found
  | cons c r => rw [afterAnchor?, if_pos rfl, found]

theorem afterAppApi?_cons_cons {a b : Text} (other : ¬("app" = a ∧ "api" = b)) :
    afterAppApi? (a :: b :: more) = afterAppApi? (b :: more) := by
  have apart : (a == "app" && b == "api") = false := by
    refine Bool.eq_false_iff.mpr fun same => other ?_
    obtain ⟨first, second⟩ := Bool.and_eq_true_iff.mp same
    exact ⟨(eq_of_beq first).symm, (eq_of_beq second).symm⟩
  rw [afterAppApi?, apart]
  rfl

theorem anchor_eq :
    ("app/api" : Text) = ("app" : Text) ++ ('/' : CodePoint) :: ("api" : Text) := rfl

/-- **The path after `app/api`** has the segments after `app` and `api`. -/
theorem afterAnchor?_join (plain : ∀ t ∈ ts, Plain t) :
    afterAnchor? true (Text.join "/" ts) = (afterAppApi? ts).map (Text.join "/") := by
  have app : Plain "app" := by decide
  have api : Plain "api" := by decide
  induction ts with
  | nil => rfl
  | cons a more ih =>
      have ha : Plain a := plain a (by simp)
      have plain' : ∀ t ∈ more, Plain t := fun t ht => plain t (List.mem_cons_of_mem _ ht)
      cases more with
      | nil =>
          have absent := afterPart?_single app ha (v := "api")
          rw [← anchor_eq, ← List.append_nil a] at absent
          rw [join_slash_singleton, ← List.append_nil a, afterAnchor?_skip ha (.inl rfl) absent]
          rfl
      | cons b more =>
          have start := afterPart?_pair app api ha (plain' b (by simp)) more
          rw [← anchor_eq] at start
          by_cases here : "app" = a ∧ "api" = b
          · obtain ⟨rfl, rfl⟩ := here
            rw [if_pos ⟨rfl, rfl⟩] at start
            exact afterAnchor?_of_some start
          · rw [if_neg here, join_slash_cons a (List.cons_ne_nil b more)] at start
            rw [afterAppApi?_cons_cons here, ← ih plain', ← afterAnchor?_slash false,
              join_slash_cons a (List.cons_ne_nil b more)]
            exact afterAnchor?_skip ha (.inr ⟨_, rfl⟩) start

/-! ### Pairs of Segments -/

/-- The pair of segments below which an API is routed. -/
def appApi : List Text := ["app", "api"]

/-- Whether `app` is directly followed by `api`. -/
def Anchored (ts : List Text) : Prop :=
  appApi <:+: ts

instance (ts : List Text) : Decidable (Anchored ts) :=
  inferInstanceAs (Decidable (appApi <:+: ts))

theorem not_anchored_tail {a : Text} (h : ¬Anchored (a :: ts)) : ¬Anchored ts :=
  fun inside => h (inside.trans (List.suffix_cons a ts).isInfix)

/-- Where there is no pair, the first two segments are none. -/
theorem not_pair_of_not_anchored {a b : Text} (h : ¬Anchored (a :: b :: ts)) :
    ¬("app" = a ∧ "api" = b) := by
  rintro ⟨rfl, rfl⟩
  exact h ⟨[], ts, rfl⟩

/-- Without `app/api` nothing comes after it. -/
theorem afterAppApi?_eq_none (h : ¬Anchored ts) : afterAppApi? ts = none := by
  induction ts with
  | nil => rfl
  | cons a ts ih =>
      cases ts with
      | nil => rfl
      | cons b ts =>
          rw [afterAppApi?_cons_cons (not_pair_of_not_anchored h), ih (not_anchored_tail h)]

/-- The segments before the first `app/api` do not count. -/
theorem afterAppApi?_append (h : ¬Anchored ts) (more : List Text) :
    afterAppApi? (ts ++ (appApi ++ more)) = some more := by
  induction ts with
  | nil => rfl
  | cons a ts ih =>
      rw [← ih (not_anchored_tail h)]
      cases ts with
      | nil => exact afterAppApi?_cons_cons fun same => absurd same.2 (by decide)
      | cons b ts => exact afterAppApi?_cons_cons (not_pair_of_not_anchored h)

/-! ### Directories -/

/-- A directory, as it is written in a path. -/
structure Directory where
  /-- Whether the path begins with a slash. -/
  fromRoot : Bool
  /-- The segments. -/
  names : List Text

namespace Directory

/-- The directories whose segments are plain and not empty. -/
def WellFormed (dir : Directory) : Prop :=
  ∀ name ∈ dir.names, name ≠ [] ∧ Plain name

instance (dir : Directory) : Decidable dir.WellFormed :=
  List.decidableBAll _ dir.names

/-- What stands before the first segment. -/
def lead (dir : Directory) : Text :=
  if dir.fromRoot then "/" else []

/-- The path of segments below a directory. -/
def path (dir : Directory) (below : List Text) : Text :=
  dir.lead ++ Text.join "/" (dir.names ++ below)

variable {dir : Directory} {below : List Text}

theorem plain_of_wellFormed (wf : dir.WellFormed) (plain : ∀ t ∈ below, Plain t) :
    ∀ t ∈ dir.names ++ below, Plain t := by
  intro t ht
  rcases List.mem_append.mp ht with ht | ht
  · exact (wf t ht).2
  · exact plain t ht

/-- A path of plain segments has no backslashes. -/
theorem withSlashes_path (wf : dir.WellFormed) (plain : ∀ t ∈ below, Plain t) :
    withSlashes (dir.path below) = dir.path below := by
  refine withSlashes_eq_self fun c hc => ?_
  have slash : ∀ d ∈ ("/" : Text), d.val ≠ 0x5C := by
    intro d hd
    rw [List.mem_singleton.mp hd]
    decide
  rcases List.mem_append.mp hc with hc | hc
  · rw [lead] at hc
    split at hc
    · exact slash c hc
    · cases hc
  · rcases Text.mem_of_mem_join hc with hc | ⟨t, ht, hc⟩
    · exact slash c hc
    · exact (plain_of_wellFormed wf plain t ht c hc).2.1

/-- A slash before the first segment does not hide an anchor. -/
theorem afterAnchor?_path (wf : dir.WellFormed) (plain : ∀ t ∈ below, Plain t) :
    afterAnchor? true (dir.path below) =
      (afterAppApi? (dir.names ++ below)).map (Text.join "/") := by
  rw [← afterAnchor?_join (plain_of_wellFormed wf plain), path, lead]
  split
  · exact afterAnchor?_slash true _
  · rfl

/-- A path whose first segment is not `api` is no template. -/
theorem afterTemplateRoot?_path (wf : dir.WellFormed) (ne : dir.names ≠ [])
    (first : dir.names.head? ≠ some ("api" : Text)) :
    afterTemplateRoot? (dir.path below) = none := by
  obtain ⟨a, names, eq⟩ := List.exists_cons_of_ne_nil ne
  have mem : a ∈ dir.names := eq ▸ List.mem_cons_self
  obtain ⟨nonempty, plain⟩ := wf a mem
  rw [eq] at first
  have other : ("api" : Text) ≠ a := fun same => first (congrArg some same.symm)
  have absent := afterPart?_join (t := "api") (by decide) plain (names ++ below)
  rw [if_neg other] at absent
  rw [path, eq, List.cons_append, lead]
  split
  · exact absent
  · obtain ⟨c, t, rfl⟩ := List.exists_cons_of_ne_nil nonempty
    obtain ⟨x, joined, -, -⟩ := boundary_join (names ++ below) (c :: t)
    rw [List.nil_append]
    rw [joined] at absent ⊢
    rw [List.cons_append] at absent ⊢
    have slash : (c == ('/' : CodePoint)) = false := beq_false_of_ne plain.head.1
    rw [afterTemplateRoot?, slash]
    exact absent

/-- A directory is written without a slash at its end. -/
theorem trimRight_path (wf : dir.WellFormed) (ne : dir.names ≠ []) :
    (dir.path []).trimRight (fun c => c == '/') = dir.path [] := by
  obtain ⟨names, a, eq⟩ := (List.eq_nil_or_concat dir.names).resolve_left ne
  rw [List.concat_eq_append] at eq
  obtain ⟨nonempty, plain⟩ := wf a (eq ▸ by simp)
  obtain ⟨x, joined⟩ := exists_join_concat names a
  have ends : dir.path [] = dir.lead ++ x ++ a := by
    rw [path, List.append_nil, eq, joined, List.append_assoc]
  refine List.rdropWhile_eq_self_iff.mpr fun hl => ?_
  have last : (dir.path []).getLast hl = a.getLast nonempty := by
    simp only [ends, List.getLast_append_of_ne_nil _ nonempty]
  rw [last]
  simpa using (plain _ (List.getLast_mem nonempty)).1

/-- **A directory before `app/api` does not count.** -/
theorem belowRoot_anchored (wf : dir.WellFormed) (plain : ∀ t ∈ below, Plain t)
    (apart : ¬Anchored dir.names) (root : Option Text) :
    belowRoot (dir.path (appApi ++ below)) root = Text.join "/" below := by
  have anchor : ∀ t ∈ appApi, Plain t := by decide
  have plain' : ∀ t ∈ appApi ++ below, Plain t := by
    intro t ht
    exact (List.mem_append.mp ht).elim (anchor t) (plain t)
  have found : afterAnchor? true (dir.path (appApi ++ below)) = some (Text.join "/" below) := by
    rw [afterAnchor?_path wf plain', afterAppApi?_append apart]
    rfl
  simp only [belowRoot, found]

/-- **What is left below a root directory**, where the path is neither below `app/api` nor a
template. -/
theorem belowRoot_rooted (wf : dir.WellFormed) (ne : dir.names ≠ []) (ne' : below ≠ [])
    (plain : ∀ t ∈ below, Plain t) (apart : ¬Anchored (dir.names ++ below))
    (first : dir.names.head? ≠ some ("api" : Text)) :
    belowRoot (dir.path below) (some (dir.path [])) = Text.join "/" below := by
  have root : withSlashes (dir.path []) = dir.path [] := withSlashes_path wf nofun
  have split : dir.path below = (dir.path [] ++ "/") ++ Text.join "/" below := by
    rw [path, path, List.append_nil, join_slash_append ne ne']
    simp [List.append_assoc]
    rfl
  have start : (dir.path [] ++ "/").isPrefixOf (dir.path below) = true :=
    List.isPrefixOf_iff_prefix.mpr ⟨_, split.symm⟩
  have none : afterAnchor? true (dir.path below) = none := by
    rw [afterAnchor?_path wf plain, afterAppApi?_eq_none apart]
    rfl
  simp only [belowRoot, none, afterTemplateRoot?_path wf ne first, root, trimRight_path wf ne,
    start, if_true]
  rw [split, List.drop_left]

end Directory

/-! ### Last Segments -/

variable {names : List Text} {r : Text}

/-- A segment is one of the names, with nothing left after it, or no name ends there. -/
theorem afterName?_plain (names : List Text) (ht : Plain t) :
    afterName? names t = if t ∈ names then some [] else none := by
  have ended : (names.any fun name => t == name ++ "\n") = false := by
    refine List.any_eq_false.mpr fun name _ same => ?_
    rw [eq_of_beq same] at ht
    exact (ht '\n' (List.mem_append_right name List.mem_cons_self)).2.2 rfl
  rw [afterName?, ended]
  simp

/-- A path of several segments is none of the names. -/
theorem afterName?_slash (single : ∀ name ∈ names, Plain name) (t r : Text) :
    afterName? names (t ++ ('/' : CodePoint) :: r) = none := by
  have mem : ('/' : CodePoint) ∈ t ++ ('/' : CodePoint) :: r := by simp
  have other : t ++ ('/' : CodePoint) :: r ∉ names := fun listed => (single _ listed _ mem).1 rfl
  have ended : (names.any fun name => t ++ ('/' : CodePoint) :: r == name ++ "\n") = false := by
    refine List.any_eq_false.mpr fun name listed same => ?_
    rw [eq_of_beq same] at mem
    rcases List.mem_append.mp mem with mem | mem
    · exact (single _ listed _ mem).1 rfl
    · exact absurd (List.mem_singleton.mp mem) (by decide)
  rw [afterName?, ended]
  simp [other]

/-- A segment is kept while what follows it is looked at. -/
theorem dropNameBelow_append (names : List Text) (ht : Plain t) (r : Text) :
    dropNameBelow names (t ++ r) = t ++ dropNameBelow names r := by
  induction t with
  | nil => rfl
  | cons c t ih =>
      have slash : (c == ('/' : CodePoint)) = false := beq_false_of_ne ht.head.1
      rw [List.cons_append, dropNameBelow, slash]
      simp only [Bool.false_eq_true, if_false, ih ht.tail, List.cons_append]

theorem dropNameBelow_plain (ht : Plain t) : dropNameBelow names t = t := by
  have step := dropNameBelow_append names ht []
  rwa [List.append_nil, dropNameBelow, List.append_nil] at step

/-- What follows a slash is dropped together with it if it is one of the names. -/
theorem dropNameBelow_slash_of_some {rest : Text} (found : afterName? names r = some rest) :
    dropNameBelow names (('/' : CodePoint) :: r) = rest := by
  rw [dropNameBelow, beq_self_eq_true, if_pos rfl, found]

theorem dropNameBelow_slash_of_none (absent : afterName? names r = none) :
    dropNameBelow names (('/' : CodePoint) :: r) = ('/' : CodePoint) :: dropNameBelow names r := by
  rw [dropNameBelow, beq_self_eq_true, if_pos rfl, absent]

/-- Below a first segment the last one is dropped if it is one of the names. -/
theorem dropNameBelow_join (single : ∀ name ∈ names, Plain name) (a : Text)
    (plain : ∀ u ∈ a :: ts, Plain u) (ht : Plain t) :
    dropNameBelow names (Text.join "/" (a :: (ts ++ [t]))) =
      Text.join "/" (if t ∈ names then a :: ts else a :: (ts ++ [t])) := by
  have ha : Plain a := plain a (by simp)
  induction ts generalizing a with
  | nil =>
      rw [List.nil_append, join_slash_cons a (List.cons_ne_nil t []), join_slash_singleton,
        dropNameBelow_append names ha]
      have last := afterName?_plain names ht
      by_cases listed : t ∈ names
      · rw [if_pos listed] at last ⊢
        rw [dropNameBelow_slash_of_some last, List.append_nil, join_slash_singleton]
      · rw [if_neg listed] at last ⊢
        rw [dropNameBelow_slash_of_none last, dropNameBelow_plain ht,
          join_slash_cons a (List.cons_ne_nil t []), join_slash_singleton]
  | cons b ts ih =>
      have plain' : ∀ u ∈ b :: ts, Plain u := fun u hu => plain u (List.mem_cons_of_mem a hu)
      have below := ih b plain' (plain' b (by simp))
      have more := join_slash_cons b (List.concat_ne_nil t ts)
      have several := afterName?_slash single b (Text.join "/" (ts ++ [t]))
      rw [← more] at several
      rw [List.cons_append, join_slash_cons a (List.cons_ne_nil b _), dropNameBelow_append names ha,
        dropNameBelow_slash_of_none several, below]
      split <;> rw [join_slash_cons a (List.cons_ne_nil b _)]

/-- **A last segment is dropped if it is one of some names**, and kept otherwise. -/
theorem dropName_join (single : ∀ name ∈ names, Plain name) (plain : ∀ u ∈ ts, Plain u)
    (ht : Plain t) :
    dropName names (Text.join "/" (ts ++ [t])) =
      Text.join "/" (if t ∈ names then ts else ts ++ [t]) := by
  cases ts with
  | nil =>
      rw [List.nil_append, join_slash_singleton, dropName, afterName?_plain names ht]
      by_cases listed : t ∈ names
      · rw [if_pos listed, if_pos listed]
        rfl
      · rw [if_neg listed, if_neg listed]
        exact dropNameBelow_plain ht
  | cons a ts =>
      have path := join_slash_cons a (List.concat_ne_nil t ts)
      have several := afterName?_slash single a (Text.join "/" (ts ++ [t]))
      rw [← path] at several
      rw [List.cons_append, dropName, several]
      exact dropNameBelow_join single a plain ht

end Route

end RouteDocs
