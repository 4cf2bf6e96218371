import RouteDocs.Proofs.Files.Frame
import RouteDocs.Proofs.Render.Folder
import RouteDocs.Proofs.Text.Case

/-!
# A JSON Folder Stays Inside Its Directory

The names of an endpoint lead to a file two steps below the directory, unless the name of its
category is one that directories have for themselves or for the one above, or its method has a
slash.  Whatever happens while a documentation is written, nothing else is changed by it.

## Main Definitions

* `Folder.endpointPath`: the path that the two names of an endpoint are joined to
* `Folder.Contained`: the endpoints whose names stay inside
* `Folder.Filed`: what a documentation files in a directory, and where
* `Folder.StaysInside`: nothing but that is changed

## Main Statements

* `Folder.contained_iff`: which endpoints have a path two steps below the directory
* `Folder.Inside.preserves_writeEndpoint`, `Folder.Inside.preserves_writeCategory`: what one file
  and one category can change
* `Folder.write_stays_inside`: **a documentation of contained endpoints stays inside**
* `Folder.write_leaves`: a category leads out of the directory, and a method to the index

## Design Notes

Nothing is assumed of the tree, so every step may fail, and `Inside` is an invariant of the tree
alone.  The index is written first, and `Inside` says that it stays as it was written.
-/

namespace RouteDocs

namespace Folder

open FileTree

/-! ### Names That Stay Inside -/

/-- The path to which the two names of an endpoint are joined. -/
def endpointPath (base : FilePath) (e : Endpoint) : FilePath :=
  (base.join (directoryName e.category)).join (endpointId e ++ ".json")

/-- **The endpoints whose names stay inside**: the name of the category is none that a directory has
for itself or for the one above, and the method has no slash. -/
structure Contained (e : Endpoint) : Prop where
  /-- The category does not stay in the directory. -/
  not_here : directoryName e.category ≠ "."
  /-- The category does not lead back. -/
  not_back : directoryName e.category ≠ ".."
  /-- The method has no slash. -/
  undivided : ('/' : CodePoint) ∉ e.method

variable {e : Endpoint} {base : FilePath}

theorem slash_notMem_directoryName (category : Text) :
    ('/' : CodePoint) ∉ directoryName category :=
  fun mem => (isNameChar_spec (isNameChar_of_mem_directoryName mem)).2.2 rfl

/-- **The file of an endpoint has a slash in its name exactly if the method has one.** -/
theorem slash_mem_file_iff :
    ('/' : CodePoint) ∈ endpointId e ++ ".json" ↔ ('/' : CodePoint) ∈ e.method := by
  have ending : ('/' : CodePoint) ∉ (".json" : Text) := by decide
  have url : ('/' : CodePoint) ∉ hyphenated e.url :=
    fun mem => (isNameChar_spec (isNameChar_of_mem_hyphenated mem)).2.2 rfl
  have hyphen : ('/' : CodePoint) ∉ ("-" : Text) := by decide
  have id : endpointId e = Text.trim isHyphen (Text.lower e.method ++ "-" ++ hyphenated e.url) := rfl
  rw [List.mem_append, or_iff_left ending, id, Text.mem_trim_iff (by decide), List.mem_append,
    or_iff_left url, List.mem_append, or_iff_left hyphen, Text.mem_lower_iff (by decide)]

theorem isComponent_directoryName (contained : Contained e) :
    IsComponent (directoryName e.category) :=
  ⟨directoryName_ne_nil _, contained.not_here, contained.not_back, slash_notMem_directoryName _⟩

theorem isComponent_file (contained : Contained e) : IsComponent (endpointId e ++ ".json") := by
  have apart : ∀ u : Text, u.length < 5 → endpointId e ++ ".json" ≠ u := by
    rintro u short rfl
    have length : (endpointId e ++ ".json").length = (endpointId e).length + 5 :=
      List.length_append
    omega
  exact ⟨apart [] (by decide), apart "." (by decide), apart ".." (by decide),
    fun slash => contained.undivided (slash_mem_file_iff.mp slash)⟩

theorem isComponent_of_mem_filePlace (contained : Contained e) {name : Text}
    (mem : name ∈ filePlace e) : IsComponent name := by
  rcases List.mem_pair.mp mem with rfl | rfl
  · exact isComponent_directoryName contained
  · exact isComponent_file contained

theorem endpointPath_eq (contained : Contained e) :
    endpointPath base e = base.append (filePlace e) := by
  have directory := isComponent_directoryName contained
  have file := isComponent_file contained
  rw [endpointPath, FilePath.join_component directory.nonempty directory.not_here
    directory.undivided, FilePath.join_component file.nonempty file.not_here file.undivided,
    FilePath.append_append]
  rfl

/-- **Which endpoints have a path two steps below the directory.** -/
theorem contained_iff :
    (endpointPath base e = base.append (filePlace e) ∧ ∀ name ∈ filePlace e, IsComponent name) ↔
      Contained e := by
  constructor
  · rintro ⟨-, components⟩
    have directory := components _ List.mem_cons_self
    have file := components _ (List.mem_cons_of_mem _ List.mem_cons_self)
    exact ⟨directory.not_here, directory.not_back,
      fun slash => file.undivided (slash_mem_file_iff.mpr slash)⟩
  · intro contained
    exact ⟨endpointPath_eq contained, fun name mem => isComponent_of_mem_filePlace contained mem⟩

/-! ### What Is Changed -/

/-- **What a documentation files in a directory**, and where. -/
inductive Filed (d : Documentation) (place : Place) : Place → Option FileEntry → Prop
  /-- The index. -/
  | index : Filed d place (place ++ indexPlace) (some (fileOf (indexText d)))
  /-- The directory of the category of an endpoint. -/
  | folder {e : Endpoint} (mem : e ∈ d.endpoints) :
    Filed d place (place ++ [directoryName e.category]) (some .directory)
  /-- The file of an endpoint. -/
  | file {e : Endpoint} (mem : e ∈ d.endpoints) :
    Filed d place (place ++ filePlace e) (some (fileOf (fileText e)))

section

variable (d : Documentation) (base : FilePath) (place : Place) (start : FileTree)

/-- A tree in which a documentation is being filed in a directory, of which the index is written. -/
structure Inside (tree : FileTree) : Prop where
  /-- The path leads to the directory. -/
  root : tree.IsDirectoryAt base place
  /-- The index stands as it was written. -/
  index : tree.entry? (place ++ indexPlace) = some (fileOf (indexText d))
  /-- What has changed is filed in the directory. -/
  filed : ∀ q, tree.entry? q = start.entry? q ∨ Filed d place q ( tree.entry? q)

variable {d base place start} {tree : FileTree}

/-- The directory of a category is made inside, or nothing changes. -/
theorem Inside.makeDirs_cases (h : Inside d base place start tree) (mem : e ∈ d.endpoints)
    (contained : Contained e) :
    (∃ error, makeDirs (base.append [directoryName e.category]) tree = (.error error, tree)) ∨
    ∃ tree', makeDirs (base.append [directoryName e.category]) tree = (.ok (), tree') ∧
      Inside d base place start tree' ∧
      tree'.IsDirectoryAt (base.append [directoryName e.category])
        (place ++ [directoryName e.category]) := by
  rcases h.root.makeDirs_cases (isComponent_directoryName contained) with failed |
    ⟨tree', made, folder, grows, elsewhere⟩
  · exact .inl failed
  · refine .inr ⟨tree', made, ⟨h.root.mono grows.keeps, ?_, fun q => ?_⟩, folder⟩
    · rcases grows.entry (place ++ indexPlace) with same | ⟨none, -⟩
      · exact same.trans h.index
      · rw [h.index] at none
        cases none
    · by_cases here : q = place ++ [directoryName e.category]
      · rw [here, folder.directory]
        exact .inr (.folder mem)
      · rw [elsewhere q here]
        exact h.filed q

/-- **The file of an endpoint is written inside**, however that ends. -/
theorem Inside.preserves_writeEndpoint (mem : e ∈ d.endpoints) (contained : Contained e) :
    Preserves (fun tree => Inside d base place start tree ∧
        tree.IsDirectoryAt (base.append [directoryName e.category])
          (place ++ [directoryName e.category]))
      (writeEndpoint (base.append [directoryName e.category]) e) := by
  have file := isComponent_file contained
  unfold writeEndpoint
  refine Preserves.bind (fun tree h => ?_) fun _ tree h => h
  obtain ⟨h, folder⟩ := h
  rw [FilePath.join_component file.nonempty file.not_here file.undivided]
  rcases folder.writeText_cases file (scalar_and_lines (endpointFile e)).1 with ⟨error, failed⟩ |
    ⟨tree', written, keeps, stands, elsewhere⟩
  · rw [failed]
    exact ⟨h, folder⟩
  · have below : place ++ [directoryName e.category] ++ [endpointId e ++ ".json"] =
        place ++ filePlace e := List.append_assoc _ _ _
    rw [below] at stands elsewhere
    rw [written]
    refine ⟨⟨h.root.mono keeps, ?_, fun q => ?_⟩, folder.mono keeps⟩
    · rw [elsewhere _ (append_ne_of_length (q := indexPlace) (by simp [indexPlace, filePlace]))]
      exact h.index
    · by_cases here : q = place ++ filePlace e
      · rw [here, stands]
        exact .inr (.file mem)
      · rw [elsewhere q here]
        exact h.filed q

/-- **The files of a category are written inside**, however that ends. -/
theorem Inside.preserves_writeCategory {g : Text × List Endpoint}
    (listed : g ∈ groupByCategory d.endpoints)
    (contained : ∀ e ∈ d.endpoints, Contained e) :
    Preserves (Inside d base place start) (writeCategory base g.1 g.2) := by
  obtain ⟨⟨e, mem, category⟩, -⟩ := mem_groupBy_iff.mp listed
  have category : e.category = g.1 := category
  have directory := isComponent_directoryName (contained e mem)
  intro tree h
  unfold writeCategory
  rw [← category, FilePath.join_component directory.nonempty directory.not_here
    directory.undivided, bind_apply]
  rcases h.makeDirs_cases mem (contained e mem) with ⟨error, failed⟩ | ⟨tree', made, h, folder⟩
  · rw [failed]
    exact h
  · rw [made]
    let Here (tree : FileTree) : Prop := Inside d base place start tree ∧
      tree.IsDirectoryAt (base.append [directoryName e.category])
        (place ++ [directoryName e.category])
    refine (Preserves.mapM (I := Here) (fun e' mem' => ?_) tree' ⟨h, folder⟩).1
    obtain ⟨mem', category'⟩ := (mem_group_iff listed).mp mem'
    have same : directoryName e'.category = directoryName e.category :=
      congrArg directoryName (category'.trans category.symm)
    change Preserves (fun tree => Inside d base place start tree ∧
      tree.IsDirectoryAt (base.append [directoryName e.category])
        (place ++ [directoryName e.category])) _
    rw [← same]
    exact preserves_writeEndpoint mem' (contained e' mem')

/-- The index is written inside, or nothing changes. -/
theorem writeIndex_cases (root : start.IsDirectoryAt base place) :
    (∃ error, writeText (base.join "index.json") (indexText d) start = (.error error, start)) ∨
    ∃ tree', writeText (base.join "index.json") (indexText d) start = (.ok (), tree') ∧
      Inside d base place start tree' := by
  have component : IsComponent "index.json" := ⟨by decide, by decide, by decide, by decide⟩
  rw [FilePath.join_component component.nonempty component.not_here component.undivided]
  rcases root.writeText_cases component (scalar_and_lines (index d)).1 with failed |
    ⟨tree', written, keeps, stands, elsewhere⟩
  · exact .inl failed
  · refine .inr ⟨tree', written, root.mono keeps, stands, fun q => ?_⟩
    by_cases here : q = place ++ indexPlace
    · rw [here]
      exact .inr (stands ▸ .index)
    · exact .inl (elsewhere q here)

end

/-! ### The Whole Folder -/

/-- **Nothing is changed outside a directory** by a documentation, however its writing ends. -/
structure StaysInside (d : Documentation) (base : FilePath) (tree : FileTree)
    (outcome : Except FileError (List FilePath) × FileTree) : Prop where
  /-- The directory is made first, with those above it, and no file is changed by that. -/
  grows : Grows tree (makeDirs base tree).2
  /-- All that changes afterwards is filed in the directory, unless the index is not written. -/
  inside : (∃ error, outcome = (.error error, (makeDirs base tree).2)) ∨
    ∃ place, Inside d base place (makeDirs base tree).2 outcome.2
  /-- The paths that are told lead there. -/
  paths : ∀ paths, outcome.1 = .ok paths → paths = writtenPaths d base

section

variable {d : Documentation} {tree : FileTree}

/-- What is told of a category are the paths of its endpoints. -/
theorem eq_of_writeCategory {g : Text × List Endpoint} (listed : g ∈ groupByCategory d.endpoints)
    (contained : ∀ e ∈ d.endpoints, Contained e) {paths : List FilePath}
    (told : (writeCategory base g.1 g.2 tree).1 = .ok paths) :
    paths = g.2.map fun e => base.append (filePlace e) := by
  have each : ∀ e ∈ g.2, ∀ tree path,
      (writeEndpoint (base.join (directoryName g.1)) e tree).1 = .ok path →
        path = base.append (filePlace e) := by
    intro e inside tree path told
    obtain ⟨mem, category⟩ := (mem_group_iff listed).mp inside
    have category : e.category = g.1 := category
    rw [← endpointPath_eq (contained e mem), endpointPath, category]
    unfold writeEndpoint at told
    rw [bind_apply] at told
    generalize writeText _ _ tree = outcome at told
    obtain ⟨result, tree'⟩ := outcome
    cases result with
    | error error => cases told
    | ok _ => exact (Except.ok.inj told).symm
  unfold writeCategory at told
  rw [bind_apply] at told
  generalize makeDirs _ tree = outcome at told
  obtain ⟨result, tree'⟩ := outcome
  cases result with
  | error error => cases told
  | ok _ => exact eq_map_of_mapM each told

/-- What is told of a documentation are the paths of the index and of its endpoints. -/
theorem eq_of_writeCategories (contained : ∀ e ∈ d.endpoints, Contained e)
    {groups : List (List FilePath)}
    (told : ((groupByCategory d.endpoints).mapM (fun g => writeCategory base g.1 g.2) tree).1 =
      .ok groups) :
    base.join "index.json" :: groups.flatten = writtenPaths d base := by
  have component : IsComponent "index.json" := ⟨by decide, by decide, by decide, by decide⟩
  have each : ∀ g ∈ groupByCategory d.endpoints, ∀ tree paths,
      (writeCategory base g.1 g.2 tree).1 = .ok paths →
        paths = g.2.map fun e => base.append (filePlace e) :=
    fun _ listed _ _ => eq_of_writeCategory listed contained
  rw [eq_map_of_mapM each told, FilePath.join_component component.nonempty component.not_here
    component.undivided, writtenPaths, writeOrder, List.map_flatMap, List.flatMap_def]
  rfl

/-- **A documentation of contained endpoints stays inside.**  An endpoint has a path two steps below
the directory exactly if the name of its category is not a point or two, and its method has no
slash.  If that is so of all endpoints, then whatever stands in the tree and however the writing
ends, no file is changed but the index and the files of the endpoints, each in the directory of its
category; and the index stays as it was written. -/
theorem write_stays_inside (d : Documentation) (base : FilePath) (tree : FileTree) :
    (∀ e, (endpointPath base e = base.append (filePlace e) ∧
      ∀ name ∈ filePlace e, IsComponent name) ↔ Contained e) ∧
    ((∀ e ∈ d.endpoints, Contained e) → StaysInside d base tree (write d base tree)) := by
  refine ⟨fun e => contained_iff, fun contained => ?_⟩
  have grows := makeDirs_grows base tree
  unfold write
  rw [bind_apply]
  generalize made : makeDirs base tree = first at grows
  obtain ⟨result, start⟩ := first
  cases result with
  | error error => exact ⟨made ▸ grows, .inl ⟨error, by rw [made]⟩, nofun⟩
  | ok _ =>
      obtain ⟨place, root⟩ := exists_isDirectoryAt_of_makeDirs made
      have index : Json.print .asciiIndented (Folder.index d) = indexText d := rfl
      dsimp only
      rw [bind_apply, index]
      rcases writeIndex_cases (d := d) root with ⟨error, failed⟩ | ⟨indexed, written, h⟩
      · rw [failed]
        exact ⟨made ▸ grows, .inl ⟨error, by rw [made]⟩, nofun⟩
      · rw [written]
        dsimp only
        rw [bind_apply]
        have kept := Preserves.mapM (fun g listed => Inside.preserves_writeCategory listed contained)
          indexed h
        have told : ∀ groups, ((groupByCategory d.endpoints).mapM
            (fun g => writeCategory base g.1 g.2) indexed).1 = .ok groups →
              base.join "index.json" :: groups.flatten = writtenPaths d base :=
          fun _ => eq_of_writeCategories contained
        generalize ((groupByCategory d.endpoints).mapM fun g => writeCategory base g.1 g.2 :
          FileAction (List (List FilePath))) indexed = outcome at kept told ⊢
        obtain ⟨result, tree'⟩ := outcome
        refine ⟨made ▸ grows, .inr ⟨place, ?_⟩, fun paths done => ?_⟩
        · rw [made]
          cases result with
          | error error => exact kept
          | ok groups => exact kept
        · cases result with
          | error error => cases done
          | ok groups => exact (Except.ok.inj done).symm.trans (told groups rfl)

end

/-- Two endpoints whose names stay inside. -/
theorem write_stays_inside_users :
    let d := bareDocumentation (bareEndpoint "GET" "/api/users/\x7bid\x7d")
      (bareEndpoint "POST" "/api/tasks")
    (∀ e ∈ d.endpoints, Contained e) ∧
      StaysInside d (.ofText "out") emptyFolder (write d (.ofText "out") emptyFolder) := by
  intro d
  have contained : ∀ e ∈ d.endpoints, Contained e := by
    intro e mem
    rcases List.mem_pair.mp mem with rfl | rfl
    · exact ⟨by decide +kernel, by decide +kernel, by decide +kernel⟩
    · exact ⟨by decide +kernel, by decide +kernel, by decide +kernel⟩
  exact ⟨contained, (write_stays_inside d (.ofText "out") emptyFolder).2 contained⟩

/-- **A category leads out of the directory, and a method to the index**: the file of an endpoint
stands beside the directory, and that of another one in the place of the index. -/
theorem write_leaves :
    let e := bareEndpoint "GET" "/api/../secrets"
    let e' := bareEndpoint "../index" ""
    let outcome := write (bareDocumentation e e') (.ofText "out") emptyFolder
    outcome.1 = .ok [.ofText "out/index.json", .ofText "out/../get--api----secrets.json",
        .ofText "out/general/../index.json"] ∧
      FileTree.entry? outcome.2 ["get--api----secrets.json"] = some (fileOf (fileText e)) ∧
      FileTree.entry? outcome.2 ("out" :: indexPlace) = some (fileOf (fileText e')) ∧
      fileOf (fileText e') ≠ fileOf (indexText (bareDocumentation e e')) := by
  decide +kernel

end Folder

end RouteDocs
