import Mathlib.Data.List.Sort
import RouteDocs.Proofs.Files.Tree
import RouteDocs.Scan

/-!
# A Scan Is the Union of Its Files

What a scan finds is put together from what it finds in each route file alone.  The order of the
whole is the order of the paths, whatever the directory lists first and whichever worker is done
first, so a change of one file shows in one block of the result.

## Main Definitions

* `Scan.IsRouteFile`: the files that a scan reads
* `Scan.ownEndpoints`: the endpoints of one file, from its path and its bytes
* `Scan.contribution`: the block that a place contributes to a scan

## Main Statements

* `Scan.poolMap_eq_map`: the order in which tasks are finished does not show
* `Scan.mem_files`, `Scan.pairwise_files`: the route files, each once and in the order of paths
* `Scan.exists_block`: trees that differ in one file have scans that differ in one block
* `Scan.scan_is_union`: all of it for a scan
-/

namespace RouteDocs

/-! ### Texts of paths -/

namespace FilePath

/-- Paths below one directory that are written alike are one path. -/
theorem append_toText_injective {root : FilePath} {a b : List Text}
    (ha : a ≠ []) (hb : b ≠ []) (namesA : ∀ t ∈ a, IsName t) (namesB : ∀ t ∈ b, IsName t)
    (same : (root.append a).toText = (root.append b).toText) : a = b := by
  have slash : ∀ {ts : List Text}, (∀ t ∈ ts, IsName t) → ∀ t ∈ ts, ∀ c ∈ t, c ≠ '/' :=
    fun names t ht c hc => ((names t ht).2.2.2.2 c hc).2
  have joined : Text.join "/" a = Text.join "/" b := by
    have written : ∀ {ts : List Text}, ts ≠ [] →
        (root.append ts).toText = root.root ++ Text.join "/" (root.parts ++ ts) := by
      intro ts ne
      simp [toText, ne]
    rw [written ha, written hb] at same
    have tails := List.append_cancel_left same
    by_cases empty : root.parts = []
    · simpa [empty] using tails
    · have tails : Text.join [('/' : CodePoint)] (root.parts ++ a) =
          Text.join [('/' : CodePoint)] (root.parts ++ b) := tails
      rw [Text.join_append empty, Text.join_append empty] at tails
      have listed := congrArg List.tail (List.append_cancel_left tails)
      exact (Text.join_eq_tail '/' a).trans (listed.trans (Text.join_eq_tail '/' b).symm)
  rw [← Text.splitOn_join ha (slash namesA), ← Text.splitOn_join hb (slash namesB)]
  exact congrArg _ joined

end FilePath

namespace Scan

/-! ### The pool -/

/-- After some tasks are finished, their places hold their results. -/
theorem getElem?_foldl_set {α β : Type} (f : α → β) (tasks : List α) (finished : List Nat)
    (places : List (Option β)) (j : Nat) :
    (finished.foldl (fun places i => places.set i (tasks[i]?.map f)) places)[j]? =
      if j ∈ finished ∧ j < places.length then some (tasks[j]?.map f) else places[j]? := by
  induction finished generalizing places with
  | nil => simp
  | cons i finished ih =>
      rw [List.foldl_cons, ih, List.length_set, List.getElem?_set]
      by_cases own : i = j
      · subst own
        by_cases inside : i < places.length <;> simp [inside]
      · simp [own, Ne.symm own]

/-- **The order in which tasks are finished does not show.** -/
theorem poolMap_eq_map {α β : Type} (f : α → β) (tasks : List α) {finished : List Nat}
    (all : finished.Perm (List.range tasks.length)) : poolMap f tasks finished = tasks.map f := by
  have places : finished.foldl (fun places i => places.set i (tasks[i]?.map f))
      (tasks.map fun _ => none) = tasks.map fun x => some (f x) := by
    refine List.ext_getElem? fun j => ?_
    rw [getElem?_foldl_set]
    by_cases inside : j < tasks.length
    · have done : j ∈ finished := all.mem_iff.mpr (List.mem_range.mpr inside)
      simp [done, inside]
    · simp [inside]
  rw [poolMap]
  simp only [places]
  rw [List.filterMap_map]
  exact congrFun (List.filterMap_eq_map (f := f)) tasks

/-! ### Route files -/

/-- The files that a scan reads: those below the root that have the name of a handler file and are
covered by no pattern. -/
def IsRouteFile (tree : FileTree) (root : FilePath) (ignore : List Text) (path : FilePath)
    (bytes : List UInt8) : Prop :=
  ∃ parts, tree.HasFile root parts bytes ∧ path = root.append parts ∧
    path.name ∈ Route.handlerNames ∧
    Route.isIgnored (tree.absolute path) path root ignore = false

variable {tree tree' : FileTree} {root : FilePath} {ignore : List Text}

theorem mem_files (wf : tree.WellFormed) {path : FilePath} :
    path ∈ files tree root ignore ↔ ∃ bytes, IsRouteFile tree root ignore path bytes := by
  simp only [files, List.mem_mergeSort, List.mem_filter, wf.mem_filesBelow, Bool.and_eq_true,
    Bool.not_eq_true', List.contains_iff_mem, IsRouteFile]
  constructor
  · rintro ⟨⟨parts, bytes, file, rfl⟩, named, kept⟩
    exact ⟨bytes, parts, file, rfl, named, kept⟩
  · rintro ⟨bytes, parts, file, rfl, named, kept⟩
    exact ⟨⟨parts, bytes, file, rfl⟩, named, kept⟩

theorem pathLe_iff {p q : FilePath} : pathLe p q = true ↔ p.toText ≤ q.toText := by
  rw [pathLe, Bool.not_eq_true', ← Bool.not_eq_true, Text.lt_iff, not_lt]

/-- The components of a route file below the root are names. -/
theorem IsRouteFile.names (wf : tree.WellFormed) {path : FilePath} {bytes : List UInt8}
    (h : IsRouteFile tree root ignore path bytes) :
    ∃ parts, path = root.append parts ∧ parts ≠ [] ∧ ∀ t ∈ parts, IsName t := by
  obtain ⟨parts, ⟨place, -, ne, mem⟩, eq, -⟩ := h
  exact ⟨parts, eq, ne, fun t ht => wf.names _ mem t (by simp [ht])⟩

/-- Route files that are written alike are one file, also in different trees. -/
theorem eq_of_toText_eq (wf : tree.WellFormed) (wf' : tree'.WellFormed) {p q : FilePath}
    {a b : List UInt8} (hp : IsRouteFile tree root ignore p a)
    (hq : IsRouteFile tree' root ignore q b) (same : p.toText = q.toText) : p = q := by
  obtain ⟨ps, rfl, neP, namesP⟩ := hp.names wf
  obtain ⟨qs, rfl, neQ, namesQ⟩ := hq.names wf'
  rw [FilePath.append_toText_injective neP neQ namesP namesQ same]

/-- The order of the paths as texts. -/
def Before (p q : FilePath) : Prop := p.toText < q.toText

instance : Std.Irrefl Before := ⟨fun p => lt_irrefl p.toText⟩

instance : Std.Antisymm Before := ⟨fun _ _ h h' => absurd h' (lt_asymm h)⟩

/-- **The route files stand in the order of their paths**, each once. -/
theorem pairwise_files (wf : tree.WellFormed) : (files tree root ignore).Pairwise Before := by
  have sorted : (files tree root ignore).Pairwise fun p q => pathLe p q = true := by
    refine List.pairwise_mergeSort ?_ ?_ _
    · intro a b c hab hbc
      rw [pathLe_iff] at hab hbc ⊢
      exact le_trans hab hbc
    · intro a b
      rw [Bool.or_eq_true, pathLe_iff, pathLe_iff]
      exact le_total _ _
  have nodup : (files tree root ignore).Nodup :=
    (List.mergeSort_perm _ _).nodup_iff.mpr ((wf.nodup_filesBelow root).filter _)
  refine (sorted.and nodup).imp_of_mem fun {p q} hp hq h => ?_
  obtain ⟨a, fileP⟩ := (mem_files wf).mp hp
  obtain ⟨b, fileQ⟩ := (mem_files wf).mp hq
  exact lt_of_le_of_ne (pathLe_iff.mp h.1) fun same => h.2 (eq_of_toText_eq wf wf fileP fileQ same)

/-! ### The endpoints of one file -/

/-- The endpoints of a file from its path and its bytes: none if the bytes are no text, otherwise
one for each verb that the text exports. -/
def ownEndpoints (tree : FileTree) (root : FilePath) (login : Option Text) (path : FilePath)
    (bytes : List UInt8) : List Endpoint :=
  match Utf8.decode bytes with
  | .error _ => []
  | .ok t => (Handler.verbs t.universalNewlines).map fun v =>
    ParsedRoute.endpoint ⟨v.name, Route.url (displayPath tree path) (some (displayPath tree root)),
      displayPath tree path, t.universalNewlines⟩ login

theorem endpointsOf_eq_own (wf : tree.WellFormed) {path : FilePath} {bytes : List UInt8}
    (login : Option Text) (h : IsRouteFile tree root ignore path bytes) :
    endpointsOf tree root login path = ownEndpoints tree root login path bytes := by
  obtain ⟨parts, file, rfl, -⟩ := h
  unfold endpointsOf ownEndpoints
  rw [wf.readText_append file]
  cases Utf8.decode bytes with
  | error e => rfl
  | ok t => simp [ParsedRoute.ofFile, Function.comp_def]

/-- An endpoint has the method, the URL and the file of its route. -/
theorem endpoint_names (route : ParsedRoute) (login : Option Text) :
    ((route.endpoint login).method, (route.endpoint login).url, (route.endpoint login).file) =
      (route.method, route.url, route.file) := rfl

/-! ### Blocks -/

/-- The block that a place contributes to a scan: the endpoints of the route file that stands
there, if one does. -/
def contribution (tree : FileTree) (options : Options) (place : Place) : List Endpoint :=
  match tree.locate options.root, tree.entry? place with
  | .ok rootPlace, some (.file bytes) =>
    match FilePath.partsAfter? rootPlace place with
    | some parts =>
      let path := options.root.append parts
      if parts ≠ [] ∧ path.name ∈ Route.handlerNames
          ∧ Route.isIgnored (tree.absolute path) path options.root options.ignore = false then
        ownEndpoints tree options.root options.login path bytes
      else []
    | none => []
  | _, _ => []

/-- Whether a path below the root is a route file depends on what stands at its place. -/
theorem isRouteFile_append (wf : tree.WellFormed) {rootPlace : Place} {parts : List Text}
    {bytes : List UInt8} (found : tree.locate root = .ok rootPlace) :
    IsRouteFile tree root ignore (root.append parts) bytes ↔
      parts ≠ [] ∧ tree.entry? (rootPlace ++ parts) = some (.file bytes) ∧
        (root.append parts).name ∈ Route.handlerNames ∧
        Route.isIgnored (tree.absolute (root.append parts)) (root.append parts) root ignore
          = false := by
  constructor
  · rintro ⟨parts', ⟨place, found', ne, mem⟩, same, named, kept⟩
    obtain rfl := root.append_injective same
    obtain rfl : rootPlace = place := by simpa [found] using found'
    exact ⟨ne, (wf.mem_entries_iff.mp mem).2, named, kept⟩
  · rintro ⟨ne, stands, named, kept⟩
    have mem := wf.mem_entries_iff.mpr ⟨by simp [ne], stands⟩
    exact ⟨parts, ⟨rootPlace, found, ne, mem⟩, rfl, named, kept⟩

/-- The block of a place below the root is what its path adds to the scan. -/
theorem contribution_append (wf : tree.WellFormed) {options : Options} {rootPlace : Place}
    {parts : List Text} (found : tree.locate options.root = .ok rootPlace) :
    contribution tree options (rootPlace ++ parts) =
      if options.root.append parts ∈ files tree options.root options.ignore then
        endpointsOf tree options.root options.login (options.root.append parts)
      else [] := by
  have whole : FilePath.partsAfter? rootPlace (rootPlace ++ parts) = some parts :=
    FilePath.partsAfter?_eq_some.mpr rfl
  split
  · next listed =>
    obtain ⟨bytes, file⟩ := (mem_files wf).mp listed
    obtain ⟨ne, stands, named, kept⟩ := (isRouteFile_append wf found).mp file
    rw [endpointsOf_eq_own wf options.login file]
    simp [contribution, found, stands, whole, ne, named, kept]
  · next unlisted =>
    have no_file : ∀ bytes, ¬ IsRouteFile tree options.root options.ignore
        (options.root.append parts) bytes :=
      fun bytes file => unlisted ((mem_files wf).mpr ⟨bytes, file⟩)
    cases stands : tree.entry? (rootPlace ++ parts) with
    | none => simp [contribution, found, stands]
    | some e =>
        cases e with
        | directory => simp [contribution, found, stands]
        | file bytes =>
            have refused := no_file bytes
            rw [isRouteFile_append wf found] at refused
            simp only [contribution, found, stands, whole]
            rw [if_neg fun h => refused ⟨h.1, stands, h.2⟩]

/-- A place that is not below the root contributes nothing. -/
theorem contribution_outside {options : Options} {place : Place}
    (outside : ∀ rootPlace parts, tree.locate options.root = .ok rootPlace → parts ≠ [] →
      place ≠ rootPlace ++ parts) : contribution tree options place = [] := by
  unfold contribution
  split
  · next rootPlace bytes found stands =>
    split
    · next parts after =>
      by_cases ne : parts = []
      · simp [ne]
      · exact absurd (FilePath.partsAfter?_eq_some.mp after) (outside rootPlace parts found ne)
    · rfl
  · rfl

/-- Where no text stands, nothing is contributed. -/
theorem contribution_of_no_text {options : Options} {place : Place}
    (no_text : ∀ bytes t, tree.entry? place = some (.file bytes) → Utf8.decode bytes ≠ .ok t) :
    contribution tree options place = [] := by
  unfold contribution
  split
  · next rootPlace bytes found stands =>
    cases decoded : Utf8.decode bytes with
    | ok t => exact absurd decoded (no_text bytes t stands)
    | error e =>
        split
        · simp [ownEndpoints, decoded]
        · rfl
  · rfl

/-! ### Trees that differ in one file -/

open FileTree (DiffersAt)

theorem absolute_eq {place : Place} (h : DiffersAt place tree tree') (path : FilePath) :
    tree'.absolute path = tree.absolute path := by
  simp [FileTree.absolute, h.base, h.cwd]

theorem ownEndpoints_eq {place : Place} (h : DiffersAt place tree tree') :
    ownEndpoints tree' = ownEndpoints tree := by
  unfold ownEndpoints displayPath
  simp only [absolute_eq h]

/-- Away from the place of the difference the trees have the same route files. -/
theorem isRouteFile_iff (wf : tree.WellFormed) (wf' : tree'.WellFormed) {place : Place}
    (h : DiffersAt place tree tree') {path : FilePath} {bytes : List UInt8}
    (elsewhere : ∀ rootPlace parts, tree.locate root = .ok rootPlace →
      path = root.append parts → rootPlace ++ parts ≠ place) :
    IsRouteFile tree' root ignore path bytes ↔ IsRouteFile tree root ignore path bytes := by
  have same : ∀ {rootPlace parts}, tree.locate root = .ok rootPlace → path = root.append parts →
      (IsRouteFile tree' root ignore path bytes ↔ IsRouteFile tree root ignore path bytes) := by
    intro rootPlace parts found eq
    have other := elsewhere _ _ found eq
    rw [eq, isRouteFile_append wf found, isRouteFile_append wf' (h.locate_eq_ok_iff.mpr found),
      h.elsewhere _ other, absolute_eq h]
  constructor
  · intro file
    obtain ⟨parts, ⟨rootPlace, found, -⟩, eq, -⟩ := id file
    exact (same (h.locate_eq_ok_iff.mp found) eq).mp file
  · intro file
    obtain ⟨parts, ⟨rootPlace, found, -⟩, eq, -⟩ := id file
    exact (same found eq).mpr file

/-- A list of paths in order, cut at a path that no other path of the list is written like. -/
theorem eq_filter_append {l : List FilePath} (sorted : l.Pairwise Before) {x : FilePath}
    (alone : ∀ y ∈ l, y.toText = x.toText → y = x) :
    l = l.filter (fun y => y.toText < x.toText) ++ (if x ∈ l then [x] else []) ++
      l.filter (fun y => x.toText < y.toText) := by
  refine sorted.eq_of_mem_iff ?_ fun y => ?_
  · have middle : (if x ∈ l then [x] else []).Pairwise Before := by
      split <;> simp
    rw [List.append_assoc, List.pairwise_append, List.pairwise_append]
    refine ⟨sorted.filter _, ⟨middle, sorted.filter _, ?_⟩, ?_⟩
    · intro y hy z hz
      have eq : y = x := by split at hy <;> simp_all
      simpa [eq, Before] using (List.mem_filter.mp hz).2
    · intro y hy z hz
      have below : y.toText < x.toText := by simpa using (List.mem_filter.mp hy).2
      rcases List.mem_append.mp hz with hz | hz
      · have eq : z = x := by split at hz <;> simp_all
        simpa [eq, Before] using below
      · have above : x.toText < z.toText := by simpa using (List.mem_filter.mp hz).2
        exact lt_trans below above
  · simp only [List.mem_append, List.mem_filter, decide_eq_true_eq]
    constructor
    · intro mem
      rcases lt_trichotomy y.toText x.toText with lt | eq | gt
      · exact Or.inl (Or.inl ⟨mem, lt⟩)
      · obtain rfl := alone y mem eq
        exact Or.inl (Or.inr (by simp [mem]))
      · exact Or.inr ⟨mem, gt⟩
    · rintro ((⟨mem, -⟩ | mem) | ⟨mem, -⟩)
      · exact mem
      · split at mem
        · next listed => rw [List.mem_singleton.mp mem]; exact listed
        · cases mem
      · exact mem

/-- The scan of a tree, cut at the place of a route file of this tree or of another one. -/
theorem flatMap_files_eq (wf : tree.WellFormed) (wf' : tree'.WellFormed) {options : Options}
    {rootPlace : Place} {parts : List Text} {bytes : List UInt8}
    (found : tree.locate options.root = .ok rootPlace)
    (file : IsRouteFile tree' options.root options.ignore (options.root.append parts) bytes) :
    (files tree options.root options.ignore).flatMap
        (endpointsOf tree options.root options.login) =
      ((files tree options.root options.ignore).filter fun y =>
          y.toText < (options.root.append parts).toText).flatMap
            (endpointsOf tree options.root options.login) ++
        contribution tree options (rootPlace ++ parts) ++
        ((files tree options.root options.ignore).filter fun y =>
          (options.root.append parts).toText < y.toText).flatMap
            (endpointsOf tree options.root options.login) := by
  have alone : ∀ y ∈ files tree options.root options.ignore,
      y.toText = (options.root.append parts).toText → y = options.root.append parts := by
    intro y mem same
    obtain ⟨own, fileY⟩ := (mem_files wf).mp mem
    exact eq_of_toText_eq wf wf' fileY file same
  conv_lhs => rw [eq_filter_append (pairwise_files wf) alone]
  rw [List.flatMap_append, List.flatMap_append, contribution_append wf found]
  congr 2
  split <;> simp

/-- Where two trees that differ in a file have the same route files, the endpoints of these are the
same. -/
theorem flatMap_filter_eq (wf : tree.WellFormed) (wf' : tree'.WellFormed) {options : Options}
    {place : Place} (h : DiffersAt place tree tree') (side : FilePath → Bool)
    (same_file : ∀ path bytes, side path = true →
      (IsRouteFile tree' options.root options.ignore path bytes ↔
        IsRouteFile tree options.root options.ignore path bytes)) :
    ((files tree' options.root options.ignore).filter side).flatMap
        (endpointsOf tree' options.root options.login) =
      ((files tree options.root options.ignore).filter side).flatMap
        (endpointsOf tree options.root options.login) := by
  have same_files : (files tree' options.root options.ignore).filter side =
      (files tree options.root options.ignore).filter side := by
    refine ((pairwise_files wf').filter _).eq_of_mem_iff ((pairwise_files wf).filter _) fun p => ?_
    simp only [List.mem_filter, mem_files wf, mem_files wf']
    exact and_congr_left fun onSide => exists_congr fun _ => same_file _ _ onSide
  rw [same_files]
  refine List.flatMap_congr fun p mem => ?_
  obtain ⟨listed, onSide⟩ := List.mem_filter.mp mem
  obtain ⟨bytes, file⟩ := (mem_files wf).mp listed
  rw [endpointsOf_eq_own wf _ file, endpointsOf_eq_own wf' _ ((same_file _ _ onSide).mpr file),
    ownEndpoints_eq h]

/-- A place where no route file stands contributes nothing. -/
theorem contribution_eq_nil (wf : tree.WellFormed) {options : Options} {place : Place}
    (none : ∀ rootPlace parts bytes, tree.locate options.root = .ok rootPlace →
      place = rootPlace ++ parts →
      ¬ IsRouteFile tree options.root options.ignore (options.root.append parts) bytes) :
    contribution tree options place = [] := by
  by_cases below : ∃ rootPlace parts, tree.locate options.root = .ok rootPlace ∧
      place = rootPlace ++ parts
  · obtain ⟨rootPlace, parts, found, rfl⟩ := below
    rw [contribution_append wf found, if_neg]
    rw [mem_files wf]
    rintro ⟨bytes, file⟩
    exact none _ _ bytes found rfl file
  · exact contribution_outside fun rootPlace parts found _ eq => below ⟨_, _, found, eq⟩

/-- **Trees that differ in one file have scans that differ in one block**, the contribution of the
place of the file. -/
theorem exists_block (wf : tree.WellFormed) (wf' : tree'.WellFormed) (options : Options)
    {place : Place} (h : DiffersAt place tree tree') :
    ∃ before after : List Endpoint,
      (files tree options.root options.ignore).flatMap
          (endpointsOf tree options.root options.login) =
        before ++ contribution tree options place ++ after ∧
      (files tree' options.root options.ignore).flatMap
          (endpointsOf tree' options.root options.login) =
        before ++ contribution tree' options place ++ after := by
  by_cases below : ∃ rootPlace parts bytes, tree.locate options.root = .ok rootPlace ∧
      place = rootPlace ++ parts ∧
        (IsRouteFile tree options.root options.ignore (options.root.append parts) bytes ∨
          IsRouteFile tree' options.root options.ignore (options.root.append parts) bytes)
  -- The file counts in one of the trees: its path cuts both lists of files.
  · obtain ⟨rootPlace, parts, bytes, found, rfl, file⟩ := below
    have found' := h.locate_eq_ok_iff.mpr found
    have cut : ∀ {t : FileTree} (wft : t.WellFormed), t.locate options.root = .ok rootPlace → _ :=
      fun wft foundT => file.elim (fun f => flatMap_files_eq wft wf foundT f)
        (fun f => flatMap_files_eq wft wf' foundT f)
    have beside : ∀ (side : FilePath → Bool), side (options.root.append parts) = false →
        ∀ path bytes, side path = true →
          (IsRouteFile tree' options.root options.ignore path bytes ↔
            IsRouteFile tree options.root options.ignore path bytes) := by
      intro side off path bytes on
      refine isRouteFile_iff wf wf' h fun rootPlace' parts' again eq same => ?_
      obtain rfl : rootPlace = rootPlace' := by simpa [found] using again
      rw [eq, List.append_cancel_left same, off] at on
      cases on
    refine ⟨_, _, cut wf found, ?_⟩
    rw [cut wf' found', flatMap_filter_eq wf wf' h _ (beside _ (by simp)),
      flatMap_filter_eq wf wf' h _ (beside _ (by simp))]
  -- The file counts in neither tree: both lists of files are one list.
  · have unread : ∀ {rootPlace parts bytes}, tree.locate options.root = .ok rootPlace →
        place = rootPlace ++ parts →
          ¬ IsRouteFile tree options.root options.ignore (options.root.append parts) bytes ∧
          ¬ IsRouteFile tree' options.root options.ignore (options.root.append parts) bytes :=
      fun found eq => ⟨fun file => below ⟨_, _, _, found, eq, Or.inl file⟩,
        fun file => below ⟨_, _, _, found, eq, Or.inr file⟩⟩
    have same_file : ∀ path bytes, (fun _ => true) path = true →
        (IsRouteFile tree' options.root options.ignore path bytes ↔
          IsRouteFile tree options.root options.ignore path bytes) := by
      intro path bytes _
      by_cases here : ∃ rootPlace parts, tree.locate options.root = .ok rootPlace ∧
          path = options.root.append parts ∧ place = rootPlace ++ parts
      · obtain ⟨rootPlace, parts, found, rfl, eq⟩ := here
        exact iff_of_false (unread found eq).2 (unread found eq).1
      · exact isRouteFile_iff wf wf' h fun _ _ found eq same => here ⟨_, _, found, eq, same.symm⟩
    have same_scan := flatMap_filter_eq wf wf' h (fun _ => true) same_file
    simp only [List.filter_true] at same_scan
    refine ⟨(files tree options.root options.ignore).flatMap
      (endpointsOf tree options.root options.login), [], ?_, ?_⟩
    · rw [contribution_eq_nil wf fun _ _ _ found eq => (unread found eq).1]
      simp only [List.append_nil]
    · rw [contribution_eq_nil wf' fun _ _ _ found eq =>
        (unread (h.locate_eq_ok_iff.mp found) eq).2]
      simpa using same_scan

/-! ### The whole scan -/

/-- With any workers and any order of finishing, a scan is what its files give one after another. -/
theorem runFinishing_eq {options : Options} (present : tree.pathExists options.root = true)
    {finishing : Nat → List Nat} (all : ∀ n, (finishing n).Perm (List.range n)) (now : Text) :
    runFinishing finishing tree options now =
      .ok ⟨options.info,
        (files tree options.root options.ignore).flatMap
          (endpointsOf tree options.root options.login),
        ((files tree options.root options.ignore).flatMap
          (endpointsOf tree options.root options.login)).length, now⟩ := by
  simp [runFinishing, present, poolMap_eq_map _ _ (all _), List.flatMap_def]

/-- **A scan is the ordered union of scans of single files.**  Whatever the number of workers and
the order in which they finish, the endpoints are those of the route files below the root one after
another, in the order of the paths; a file gives nothing if its bytes are no text, and otherwise one
endpoint for each verb of its text, with the verb, the URL and the displayed path of the file.  In a
tree that differs in one file only the block of that file is different, and it is empty where no
text stands. -/
theorem scan_is_union (wf : tree.WellFormed) (options : Options)
    (present : tree.pathExists options.root = true) (finishing : Nat → List Nat)
    (all : ∀ n, (finishing n).Perm (List.range n)) (now : Text) :
    ∃ (d : Documentation) (paths : List FilePath),
      runFinishing finishing tree options now = .ok d ∧ run tree options now = .ok d ∧
      d.totalEndpoints = d.endpoints.length ∧
      paths.Pairwise (fun p q => Text.lt p.toText q.toText = true) ∧
      (∀ path, path ∈ paths ↔ ∃ bytes, IsRouteFile tree options.root options.ignore path bytes) ∧
      d.endpoints = paths.flatMap (endpointsOf tree options.root options.login) ∧
      (∀ path bytes, IsRouteFile tree options.root options.ignore path bytes →
        endpointsOf tree options.root options.login path =
          ownEndpoints tree options.root options.login path bytes ∧
        (∀ e, Utf8.decode bytes = .error e →
          endpointsOf tree options.root options.login path = []) ∧
        (∀ t, Utf8.decode bytes = .ok t →
          (endpointsOf tree options.root options.login path).map
              (fun e => (e.method, e.url, e.file)) =
            (Handler.verbs t.universalNewlines).map fun v =>
              (v.name, Route.url (displayPath tree path) (some (displayPath tree options.root)),
                displayPath tree path))) ∧
      (∀ (place : Place) (tree' : FileTree) (d' : Documentation), tree'.WellFormed →
        DiffersAt place tree tree' → runFinishing finishing tree' options now = .ok d' →
        ∃ before after, d.endpoints = before ++ contribution tree options place ++ after ∧
          d'.endpoints = before ++ contribution tree' options place ++ after) ∧
      (∀ place, (∀ bytes t, tree.entry? place = some (.file bytes) → Utf8.decode bytes ≠ .ok t) →
        contribution tree options place = []) := by
  refine ⟨_, files tree options.root options.ignore, runFinishing_eq present all now,
    runFinishing_eq present (fun _ => List.Perm.refl _) now, rfl,
    (pairwise_files wf).imp Text.lt_iff.mpr, fun path => mem_files wf, rfl, ?_, ?_,
    fun place => contribution_of_no_text⟩
  · intro path bytes file
    have own := endpointsOf_eq_own wf options.login file
    refine ⟨own, fun e failed => ?_, fun t decoded => ?_⟩
    · rw [own, ownEndpoints, failed]
    · rw [own, ownEndpoints, decoded]
      simp only [List.map_map, Function.comp_def, endpoint_names]
  · intro place tree' d' wf' h ran
    have present' : tree'.pathExists options.root = true := by
      by_contra absent
      rw [Bool.not_eq_true] at absent
      simp [runFinishing, absent] at ran
    rw [runFinishing_eq present' all] at ran
    cases ran
    exact exists_block wf wf' options h

/-- Two files scanned by two workers, the last one being done first; then the bytes of one of them
are no text. -/
theorem scan_is_union_corrupted :
    let get : List UInt8 := (Text.ofString "export const GET = g").flatMap Utf8.encodeOne
    let tree : FileTree := ⟨.ofText "/t", [], [(["api"], .directory), (["api", "a"], .directory),
      (["api", "route.ts"], .file get), (["api", "a", "route.ts"], .file get)]⟩
    let corrupted := tree.put ["api", "route.ts"] (.file [0xFF])
    let options : Options := { Options.default with root := .ofText "api", workers := 2 }
    let finishing : Nat → List Nat := fun n => (List.range n).reverse
    tree.WellFormed ∧ tree.pathExists options.root = true ∧
      (∀ n, (finishing n).Perm (List.range n)) ∧
      ∃ d d' before after, runFinishing finishing tree options "now" = .ok d ∧
        runFinishing finishing corrupted options "now" = .ok d' ∧
        d.endpoints = before ++ contribution tree options ["api", "route.ts"] ++ after ∧
        d'.endpoints = before ++ after := by
  intro get tree corrupted options finishing
  have wf : tree.WellFormed := by constructor <;> decide +kernel
  have present : tree.pathExists options.root = true := by decide +kernel
  have all : ∀ n, (finishing n).Perm (List.range n) := fun n => List.reverse_perm _
  have h : DiffersAt ["api", "route.ts"] tree corrupted :=
    FileTree.put_differsAt (by decide) (by decide +kernel) _
  have wf' : corrupted.WellFormed := by constructor <;> decide +kernel
  obtain ⟨d, -, ran, -, -, -, -, -, -, block, -⟩ :=
    scan_is_union wf options present finishing all "now"
  obtain ⟨d', -, ran', -, -, -, -, -, -, -, nothing⟩ :=
    scan_is_union wf' options (by decide +kernel) finishing all "now"
  obtain ⟨before, after, eq, eq'⟩ := block _ _ d' wf' h ran'
  refine ⟨wf, present, all, d, d', before, after, ran, ran', eq, ?_⟩
  have stands : corrupted.entry? ["api", "route.ts"] = some (.file [0xFF]) := by decide +kernel
  rw [eq', nothing ["api", "route.ts"] ?_, List.append_nil]
  rintro bytes t stands' decoded
  obtain rfl : [0xFF] = bytes := by simpa [stands] using stands'
  cases decoded

end Scan

end RouteDocs
