import RouteDocs.Proofs.Json.Printed
import RouteDocs.Proofs.Render.FileName
import RouteDocs.Proofs.Render.Grouping

/-!
# What a JSON Folder Holds

The files of a documentation are written one after another, category by category.  A file that has
the name of an earlier one takes its place, so the folder has the data of every endpoint exactly if
no two endpoints have the same name.

## Main Definitions

* `Folder.writeOrder`: the endpoints in the order in which their files are written
* `Folder.lastAt`: the endpoint that was the last one to be written under a name
* `Folder.Written`: what stands in the directory when some endpoints have been written

## Main Statements

* `Folder.Written.exists_writeEndpoint`, `Folder.Written.exists_writeCategory`: what one file and
  one category add to the directory
* `Folder.nodup_writtenPaths_iff`: the paths are distinct exactly if the names are
* `Folder.write_holds_last`: **each file holds the last endpoint of its name**
* `Folder.write_overwrites`: two endpoints whose names are the same

## Design Notes

`Written` says of every place in the directory what stands there, given the endpoints written so
far.  A step adds one endpoint at the end of these, and the run lemma `FileTree.mapM_apply` carries
that through the two nested loops.
-/

namespace RouteDocs

namespace Folder

open FileTree

/-! ### Places -/

/-- Where the index stands. -/
def indexPlace : List Text := ["index.json"]

/-- The endpoint that was the last one to be written in a place. -/
def lastAt (done : List Endpoint) (place : List Text) : Option Endpoint :=
  done.reverse.find? fun e => filePlace e == place

variable {done : List Endpoint} {e : Endpoint} {p : List Text}

theorem lastAt_concat :
    lastAt (done ++ [e]) p = if filePlace e = p then some e else lastAt done p := by
  rw [lastAt, List.reverse_append, List.reverse_singleton, List.singleton_append, List.find?_cons]
  by_cases here : filePlace e = p
  · rw [if_pos here, here, beq_self_eq_true]
  · rw [if_neg here, beq_false_of_ne here]
    rfl

/-- Where an endpoint was written, one of them is the last one. -/
theorem exists_lastAt (mem : e ∈ done) :
    ∃ e' ∈ done, lastAt done (filePlace e) = some e' ∧ filePlace e' = filePlace e := by
  cases found : lastAt done (filePlace e) with
  | none =>
      have absent := List.find?_eq_none.mp found e (List.mem_reverse.mpr mem)
      exact absurd (beq_self_eq_true _) absent
  | some e' =>
      exact ⟨e', List.mem_reverse.mp (List.mem_of_find?_eq_some found), rfl,
        eq_of_beq (List.find?_some (p := fun e' => filePlace e' == filePlace e) found)⟩

/-! ### The Order of Writing -/

/-- The endpoints in the order in which their files are written: category by category. -/
def writeOrder (es : List Endpoint) : List Endpoint :=
  (groupByCategory es).flatMap (·.2)

/-- **Every endpoint is written once.** -/
theorem perm_writeOrder (es : List Endpoint) : (writeOrder es).Perm es :=
  perm_flatMap_groupBy Endpoint.category es

theorem mem_writeOrder {es : List Endpoint} : e ∈ writeOrder es ↔ e ∈ es :=
  (perm_writeOrder es).mem_iff

/-! ### Texts of Files -/

/-- The text of the index. -/
def indexText (d : Documentation) : Text := Json.print .asciiIndented (index d)

/-- The text of the file of an endpoint. -/
def fileText (e : Endpoint) : Text := Json.print .asciiIndented (endpointFile e)

/-- What is written in ASCII can be encoded, and its lines end with line feeds. -/
theorem scalar_and_lines (v : Json) :
    (Json.print .asciiIndented v).isScalar = true ∧ ∀ c ∈ Json.print .asciiIndented v, c ≠ '\r' :=
  Json.scalar_and_lines_of_isPrinted
    (Json.printAt_all_isPrinted Json.separates_asciiIndented 0 v (.inl rfl))

/-- A file with a text. -/
def fileOf (t : Text) : FileEntry := .file (t.flatMap Utf8.encodeOne)

/-! ### Writing -/

section Writing

variable (d : Documentation) (base : FilePath) (place : Place)

/-- What stands in the directory when some endpoints have been written. -/
structure Written (done : List Endpoint) (tree : FileTree) : Prop where
  /-- The directory is where it was. -/
  root : tree.IsDirectoryAt base place
  /-- The index is written. -/
  index : tree.entry? (place ++ indexPlace) = some (fileOf (indexText d))
  /-- Below a name stands a directory, if anything. -/
  folders : ∀ dir : Text, dir ≠ "index.json" →
    tree.entry? (place ++ [dir]) = none ∨ tree.entry? (place ++ [dir]) = some .directory
  /-- The directories of the endpoints are made. -/
  made : ∀ e ∈ done, tree.entry? (place ++ [directoryName e.category]) = some .directory
  /-- A file holds the last endpoint of its name. -/
  files : ∀ dir name,
    tree.entry? (place ++ [dir, name]) = (lastAt done [dir, name]).map fun e => fileOf (fileText e)

variable {d base place} {tree : FileTree}

theorem append_ne_append {q q' : List Text} (ne : q ≠ q') : place ++ q ≠ place ++ q' :=
  fun eq => ne (List.append_cancel_left eq)

/-- Places at different depths are different. -/
theorem append_ne_of_length {q q' : List Text} (ne : q.length ≠ q'.length) :
    place ++ q ≠ place ++ q' :=
  append_ne_append fun eq => ne (congrArg List.length eq)

/-- The directory of a category is made, and nothing else happens. -/
theorem Written.exists_makeDirs (h : Written d base place done tree) {dir : Text}
    (named : IsName dir) (apart : dir ≠ "index.json") :
    ∃ tree' : FileTree, makeDirs (base.append [dir]) tree = (.ok (), tree') ∧
      Written d base place done tree' ∧ tree'.IsDirectoryAt (base.append [dir]) (place ++ [dir]) := by
  obtain ⟨tree', made, keeps, stands, elsewhere⟩ :=
    h.root.exists_makeDirs named (h.folders dir apart)
  have root := h.root.mono keeps
  refine ⟨tree', made, ⟨root, ?_, ?_, ?_, ?_⟩, ⟨root.locate_child named, stands⟩⟩
  · have other : indexPlace ≠ [dir] := fun eq => apart (List.cons.inj eq).1.symm
    rw [elsewhere _ (append_ne_append other)]
    exact h.index
  · intro dir' apart'
    by_cases same : dir' = dir
    · exact Or.inr (same ▸ stands)
    · rw [elsewhere _ (append_ne_append fun eq => same (List.cons.inj eq).1)]
      exact h.folders dir' apart'
  · intro e mem
    exact keeps.directory _ (h.made e mem)
  · intro dir' name
    rw [elsewhere _ (append_ne_of_length (q := [dir', name]) (by simp))]
    exact h.files dir' name

/-- **One file is added**, or takes the place of the last one of its name. -/
theorem Written.exists_writeEndpoint (h : Written d base place done tree) (named : Named e)
    (folder : tree.IsDirectoryAt (base.append [directoryName e.category])
      (place ++ [directoryName e.category])) :
    ∃ tree' : FileTree, writeEndpoint (base.append [directoryName e.category]) e tree =
        (.ok (base.append (filePlace e)), tree') ∧
      Written d base place (done ++ [e]) tree' ∧
      tree'.IsDirectoryAt (base.append [directoryName e.category])
        (place ++ [directoryName e.category]) := by
  have below : place ++ [directoryName e.category] ++ [endpointId e ++ ".json"] =
      place ++ filePlace e := List.append_assoc _ _ _
  have free : tree.entry? (place ++ [directoryName e.category] ++ [endpointId e ++ ".json"]) ≠
      some .directory := by
    rw [below, filePlace, h.files]
    cases lastAt done [directoryName e.category, endpointId e ++ ".json"] with
    | none => nofun
    | some last => nofun
  obtain ⟨tree', written, keeps, stands, elsewhere⟩ :=
    folder.exists_writeText named.file free (scalar_and_lines (endpointFile e)).1
  rw [below] at stands elsewhere
  refine ⟨tree', ?_, ⟨h.root.mono keeps, ?_, ?_, ?_, ?_⟩, folder.mono keeps⟩
  · have file : (base.append [directoryName e.category]).join (endpointId e ++ ".json") =
        (base.append [directoryName e.category]).append [endpointId e ++ ".json"] :=
      FilePath.join_name named.file _
    unfold writeEndpoint
    rw [file, bind_apply, written]
    rw [FilePath.append_append]
    rfl
  · rw [elsewhere _ (append_ne_of_length (q := indexPlace) (by simp [indexPlace, filePlace]))]
    exact h.index
  · intro dir apart
    rw [elsewhere _ (append_ne_of_length (q := [dir]) (by simp [filePlace]))]
    exact h.folders dir apart
  · intro e' mem
    rcases List.mem_append.mp mem with mem | mem
    · exact keeps.directory _ (h.made e' mem)
    · rw [List.mem_singleton.mp mem]
      exact keeps.directory _ folder.directory
  · intro dir name
    rw [lastAt_concat]
    by_cases here : filePlace e = [dir, name]
    · rw [if_pos here, ← here]
      exact stands
    · rw [if_neg here, elsewhere _ (append_ne_append (Ne.symm here))]
      exact h.files dir name

/-- **One category is added**, file by file. -/
theorem Written.exists_writeCategory (h : Written d base place done tree) {category : Text}
    {es : List Endpoint} (named : IsName (directoryName category))
    (apart : directoryName category ≠ "index.json")
    (group : ∀ e ∈ es, Named e ∧ e.category = category) :
    ∃ tree' : FileTree, writeCategory base category es tree =
        (.ok (es.map fun e => base.append (filePlace e)), tree') ∧
      Written d base place (done ++ es) tree' := by
  obtain ⟨start, made, h, folder⟩ := h.exists_makeDirs named apart
  let Grown (done : List Endpoint) (tree : FileTree) : Prop :=
    Written d base place done tree ∧
      tree.IsDirectoryAt (base.append [directoryName category]) (place ++ [directoryName category])
  have step : ∀ done e tree, e ∈ es → Grown done tree →
      ∃ tree', writeEndpoint (base.append [directoryName category]) e tree =
        (.ok (base.append (filePlace e)), tree') ∧ Grown (done ++ [e]) tree' := by
    rintro done e tree mem ⟨h, folder⟩
    obtain ⟨fits, rfl⟩ := group e mem
    obtain ⟨tree', written, h, folder⟩ := h.exists_writeEndpoint fits folder
    exact ⟨tree', written, h, folder⟩
  obtain ⟨tree', written, h, -⟩ := mapM_apply step (show Grown done start from ⟨h, folder⟩)
  refine ⟨tree', ?_, h⟩
  unfold writeCategory
  rw [FilePath.join_name named, bind_apply, made]
  exact written

/-! ### The Whole Folder -/

theorem isName_index : IsName "index.json" := by decide

/-- The index is written into an empty directory. -/
theorem exists_writeIndex (root : tree.IsDirectoryAt base place)
    (empty : ∀ q, q ≠ [] → tree.entry? (place ++ q) = none) :
    ∃ tree' : FileTree, writeText (base.append indexPlace) (indexText d) tree = (.ok (), tree') ∧
      Written d base place [] tree' := by
  have free : tree.entry? (place ++ indexPlace) ≠ some .directory := by
    rw [empty indexPlace (List.cons_ne_nil _ _)]
    nofun
  obtain ⟨tree', written, keeps, stands, elsewhere⟩ :=
    root.exists_writeText isName_index free (scalar_and_lines (index d)).1
  refine ⟨tree', written, ⟨root.mono keeps, stands, ?_, ?_, ?_⟩⟩
  · intro dir apart
    have other : [dir] ≠ indexPlace := fun eq => apart (List.cons.inj eq).1
    rw [elsewhere _ (append_ne_append other)]
    exact Or.inl (empty [dir] (List.cons_ne_nil _ _))
  · intro e mem
    cases mem
  · intro dir name
    rw [elsewhere _ (append_ne_of_length (q := [dir, name]) (by simp))]
    exact empty [dir, name] (List.cons_ne_nil _ _)

/-- The paths of the files of a documentation, in the order in which they are written. -/
def writtenPaths (d : Documentation) (base : FilePath) : List FilePath :=
  base.append indexPlace :: (writeOrder d.endpoints).map fun e => base.append (filePlace e)

/-- **A documentation is written into an empty directory**, the last endpoint of each name last. -/
theorem exists_write (root : tree.IsDirectoryAt base place)
    (empty : ∀ q, q ≠ [] → tree.entry? (place ++ q) = none)
    (named : ∀ e ∈ d.endpoints, Named e) :
    ∃ tree', write d base tree = (.ok (writtenPaths d base), tree') ∧
      Written d base place (writeOrder d.endpoints) tree' := by
  obtain ⟨start, index, h⟩ := exists_writeIndex (d := d) root empty
  have step : ∀ done g tree, g ∈ groupByCategory d.endpoints →
      Written d base place (done.flatMap (·.2)) tree →
      ∃ tree', writeCategory base g.1 g.2 tree =
        (.ok (g.2.map fun e => base.append (filePlace e)), tree') ∧
        Written d base place ((done ++ [g]).flatMap (·.2)) tree' := by
    intro done g tree listed h
    obtain ⟨⟨e, mem, category⟩, -⟩ := mem_groupBy_iff.mp listed
    have group : ∀ e ∈ g.2, Named e ∧ e.category = g.1 := by
      intro e inside
      obtain ⟨mem, category⟩ := (mem_group_iff listed).mp inside
      exact ⟨named e mem, category⟩
    rw [List.flatMap_append, List.flatMap_singleton]
    exact h.exists_writeCategory (category ▸ (named e mem).directory)
      (category ▸ (named e mem).apart) group
  let Grown (done : Assoc (List Endpoint)) (tree : FileTree) : Prop :=
    Written d base place (done.flatMap (·.2)) tree
  obtain ⟨tree', files, h⟩ := mapM_apply step (show Grown [] start from h)
  have first : writeText (base.append [("index.json" : Text)])
      (Json.print .asciiIndented (Folder.index d)) tree = (.ok (), start) := index
  refine ⟨tree', ?_, h⟩
  unfold write
  rw [bind_apply, root.makeDirs_eq]
  dsimp only
  rw [FilePath.join_name isName_index, bind_apply, first]
  dsimp only
  rw [bind_apply, files, writtenPaths, writeOrder, List.map_flatMap, List.flatMap_def]
  rfl

/-- The index is read as it was written. -/
theorem Written.readText_index (h : Written d base place done tree) :
    tree.readText (base.append indexPlace) = .ok (indexText d) := by
  obtain ⟨scalar, lines⟩ := scalar_and_lines (Folder.index d)
  exact readText_eq_ok (h.root.locate_child isName_index) h.index
    (Utf8.encode_eq_ok.mpr ⟨scalar, rfl⟩) lines

/-- A file is read as it was written for the last endpoint of its name. -/
theorem Written.readText_file (h : Written d base place done tree) (mem : e ∈ done)
    (named : Named e) {last : Endpoint} (found : lastAt done (filePlace e) = some last) :
    tree.readText (base.append (filePlace e)) = .ok (fileText last) := by
  have folder : tree.IsDirectoryAt (base.append [directoryName e.category])
      (place ++ [directoryName e.category]) :=
    ⟨h.root.locate_child named.directory, h.made e mem⟩
  have located := folder.locate_child named.file
  rw [FilePath.append_append, List.append_assoc] at located
  have stands := h.files (directoryName e.category) (endpointId e ++ ".json")
  rw [← filePlace, found] at stands
  obtain ⟨scalar, lines⟩ := scalar_and_lines (endpointFile last)
  exact readText_eq_ok located stands (Utf8.encode_eq_ok.mpr ⟨scalar, rfl⟩) lines

end Writing

/-! ### Distinct Names -/

/-- **The paths are distinct exactly if the names are.** -/
theorem nodup_writtenPaths_iff (d : Documentation) (base : FilePath) :
    (writtenPaths d base).Nodup ↔ (d.endpoints.map filePlace).Nodup := by
  have index : base.append indexPlace ∉
      (writeOrder d.endpoints).map fun e => base.append (filePlace e) := by
    intro mem
    obtain ⟨e, -, eq⟩ := List.mem_map.mp mem
    exact absurd (congrArg List.length (base.append_injective eq)) (by simp [filePlace, indexPlace])
  have apart : ((writeOrder d.endpoints).map fun e => base.append (filePlace e)) =
      ((writeOrder d.endpoints).map filePlace).map base.append := by
    rw [List.map_map]
    rfl
  rw [writtenPaths, List.nodup_cons, and_iff_right index, apart,
    List.nodup_map_iff base.append_injective,
    ((perm_writeOrder d.endpoints).map filePlace).nodup_iff]

/-- Where names are distinct, an endpoint is the last one of its name. -/
theorem lastAt_eq_some_of_nodup (nodup : (done.map filePlace).Nodup) (mem : e ∈ done) :
    lastAt done (filePlace e) = some e := by
  obtain ⟨last, mem', found, same⟩ := exists_lastAt mem
  rw [found, List.inj_on_of_nodup_map nodup mem' mem same]

/-! ### An Empty Folder -/

/-- An endpoint of which little is known. -/
def bareEndpoint (method url : Text) : Endpoint where
  method := method
  url := url
  file := "src/app/api/route.ts"
  title := none
  description := none
  summary := none
  parameters := []
  responses := []
  requestHeaders := none
  requestBody := none
  tags := []
  requiresAuth := false
  authentication := none

/-- The documentation of two such endpoints. -/
def bareDocumentation (e e' : Endpoint) : Documentation :=
  ⟨Info.default, [e, e'], 2, "2024-05-01T12:00:00"⟩

/-- A tree with an empty directory. -/
def emptyFolder : FileTree := ⟨.ofText "/t", [], [(["out"], .directory)]⟩

theorem emptyFolder_root : emptyFolder.IsDirectoryAt (.ofText "out") ["out"] :=
  ⟨by decide +kernel, by decide⟩

theorem emptyFolder_empty (q : List Text) (ne : q ≠ []) :
    emptyFolder.entry? ([("out" : Text)] ++ q) = none := by
  obtain ⟨name, more, rfl⟩ := List.exists_cons_of_ne_nil ne
  rfl

/-! ### What the Files Hold -/

/-- **Each file holds the last endpoint of its name.**  A documentation is written into an empty
directory; the paths of the files are told in the order in which they were written, and they are
distinct exactly if the names are.  The index holds all endpoints, and a file holds the data of the
last endpoint that has its name, which is the only one where names are distinct.  So they are where
no two endpoints have one method and one URL and the parts of the URLs are words, alone or in
braces. -/
theorem write_holds_last {d : Documentation} {base : FilePath} {place : Place} {tree : FileTree}
    (root : tree.IsDirectoryAt base place)
    (empty : ∀ q, q ≠ [] → tree.entry? (place ++ q) = none)
    (named : ∀ e ∈ d.endpoints, Named e) :
    ∃ tree', write d base tree = (.ok (writtenPaths d base), tree') ∧
      tree'.readText (base.append indexPlace) = .ok (indexText d) ∧
      (∀ e ∈ d.endpoints, ∃ last ∈ d.endpoints,
        lastAt (writeOrder d.endpoints) (filePlace e) = some last ∧
          tree'.readText (base.append (filePlace e)) = .ok (fileText last)) ∧
      ((writtenPaths d base).Nodup ↔ (d.endpoints.map filePlace).Nodup) ∧
      ((d.endpoints.map filePlace).Nodup → ∀ e ∈ d.endpoints,
        tree'.readText (base.append (filePlace e)) = .ok (fileText e)) ∧
      ((∀ e ∈ d.endpoints, Simple e) → (d.endpoints.map fun e => (e.method, e.url)).Nodup →
        (d.endpoints.map filePlace).Nodup) := by
  obtain ⟨tree', written, h⟩ := exists_write root empty named
  refine ⟨tree', written, h.readText_index, ?_, nodup_writtenPaths_iff d base, ?_,
    nodup_filePlace⟩
  · intro e mem
    obtain ⟨last, mem', found, -⟩ := exists_lastAt (mem_writeOrder.mpr mem)
    exact ⟨last, mem_writeOrder.mp mem', found,
      h.readText_file (mem_writeOrder.mpr mem) (named e mem) found⟩
  · intro nodup e mem
    have nodup' : ((writeOrder d.endpoints).map filePlace).Nodup :=
      ((perm_writeOrder d.endpoints).map filePlace).nodup_iff.mpr nodup
    exact h.readText_file (mem_writeOrder.mpr mem) (named e mem)
      (lastAt_eq_some_of_nodup nodup' (mem_writeOrder.mpr mem))

/-- Each of two endpoints has a file of its own. -/
theorem write_holds_users :
    let e := bareEndpoint "GET" "/api/users/\x7bid\x7d"
    let e' := bareEndpoint "POST" "/api/tasks"
    ∃ tree', write (bareDocumentation e e') (.ofText "out") emptyFolder =
        (.ok [.ofText "out/index.json", .ofText "out/users/get--api-users--id.json",
          .ofText "out/tasks/post--api-tasks.json"], tree') ∧
      tree'.readText (.ofText "out/users/get--api-users--id.json") = .ok (fileText e) ∧
      tree'.readText (.ofText "out/tasks/post--api-tasks.json") = .ok (fileText e') := by
  intro e e'
  have named : ∀ x ∈ [e, e'], Named x := by
    intro x mem
    rcases List.mem_pair.mp mem with rfl | rfl
    · exact ⟨by decide +kernel, by decide +kernel, by decide +kernel⟩
    · exact ⟨by decide +kernel, by decide +kernel, by decide +kernel⟩
  obtain ⟨tree', written, -, -, -, own, -⟩ :=
    write_holds_last (d := bareDocumentation e e') emptyFolder_root emptyFolder_empty named
  have holds := own (by decide +kernel)
  have paths : writtenPaths (bareDocumentation e e') (.ofText "out") =
      [.ofText "out/index.json", .ofText "out/users/get--api-users--id.json",
        .ofText "out/tasks/post--api-tasks.json"] := by
    decide +kernel
  have file : (FilePath.ofText "out").append (filePlace e) =
      .ofText "out/users/get--api-users--id.json" := by decide +kernel
  have file' : (FilePath.ofText "out").append (filePlace e') =
      .ofText "out/tasks/post--api-tasks.json" := by decide +kernel
  rw [paths] at written
  exact ⟨tree', written, file ▸ holds e List.mem_cons_self,
    file' ▸ holds e' (List.mem_cons_of_mem _ List.mem_cons_self)⟩

/-- **An endpoint is lost**: of two endpoints with different URLs that have one name, the file holds
the second one, and its path is told twice. -/
theorem write_overwrites :
    let e := bareEndpoint "GET" "/api/admin/user-roles"
    let e' := bareEndpoint "GET" "/api/admin/user/roles"
    ∃ tree', write (bareDocumentation e e') (.ofText "out") emptyFolder =
        (.ok [.ofText "out/index.json", .ofText "out/admin/get--api-admin-user-roles.json",
          .ofText "out/admin/get--api-admin-user-roles.json"], tree') ∧
      tree'.readText ((FilePath.ofText "out").append (filePlace e)) = .ok (fileText e') ∧
      fileText e' ≠ fileText e := by
  intro e e'
  have same : filePlace e' = filePlace e := by decide +kernel
  have named : Named e := ⟨by decide +kernel, by decide +kernel, by decide +kernel⟩
  have named' : Named e' := ⟨by decide +kernel, by decide +kernel, by decide +kernel⟩
  have both : ∀ x ∈ [e, e'], Named x := by
    intro x mem
    rcases List.mem_pair.mp mem with rfl | rfl
    · exact named
    · exact named'
  have order : writeOrder [e, e'] = [e] ++ [e'] := by rfl
  obtain ⟨tree', written, h⟩ :=
    exists_write (d := bareDocumentation e e') emptyFolder_root emptyFolder_empty both
  have last : lastAt (writeOrder [e, e']) (filePlace e) = some e' := by
    rw [order, lastAt_concat, if_pos same]
  have paths : writtenPaths (bareDocumentation e e') (.ofText "out") =
      [.ofText "out/index.json", .ofText "out/admin/get--api-admin-user-roles.json",
        .ofText "out/admin/get--api-admin-user-roles.json"] := by
    decide +kernel
  rw [paths] at written
  refine ⟨tree', written, ?_, by decide +kernel⟩
  exact h.readText_file (mem_writeOrder.mpr List.mem_cons_self) named last

end Folder

end RouteDocs
