import RouteDocs.Proofs.Files.Write

/-!
# Filling a Directory

What is made and written in a directory, given by its path, and what stays as it was.

## Main Definitions

* `IsComponent`: the components that lead to an entry of a directory
* `FileTree.IsDirectoryAt`: a path leads to a directory

## Main Statements

* `FilePath.join_component`, `FilePath.join_name`: what is joined to a path as one component
* `FileTree.IsDirectoryAt.locate_child`: a name leads from a directory to a place in it
* `FileTree.IsDirectoryAt.exists_makeDirs`: a directory is made in a directory, or stays
* `FileTree.IsDirectoryAt.exists_writeText`: a file is written in a directory
* `FileTree.mapM_apply`: **a run of actions keeps what each action keeps**

## Design Notes

Each action is described by the tree after it: what stands at the place it is about, that nothing
else changes, and that directories stay where they are. So the descriptions are chained without
looking at the actions again.
-/

namespace RouteDocs

/-- **Components of paths** that lead to an entry of a directory. -/
structure IsComponent (t : Text) : Prop where
  /-- It is not empty. -/
  nonempty : t ≠ []
  /-- It does not stand for the directory itself. -/
  not_here : t ≠ "."
  /-- It does not stand for the directory above. -/
  not_back : t ≠ ".."
  /-- It is not divided. -/
  undivided : ('/' : CodePoint) ∉ t

/-- Components, condition by condition. -/
theorem isComponent_iff {t : Text} :
    IsComponent t ↔ t ≠ [] ∧ t ≠ "." ∧ t ≠ ".." ∧ ('/' : CodePoint) ∉ t := by
  constructor
  · intro component
    exact ⟨component.nonempty, component.not_here, component.not_back, component.undivided⟩
  · rintro ⟨nonempty, here, back, undivided⟩
    exact ⟨nonempty, here, back, undivided⟩

instance (t : Text) : Decidable (IsComponent t) :=
  decidable_of_iff _ isComponent_iff.symm

namespace FilePath

theorem append_append (p : FilePath) (a b : List Text) : (p.append a).append b = p.append (a ++ b) := by
  rw [append, append_parts, List.append_assoc]
  rfl

/-- A text without slashes, unless it is empty or a point, is joined to a path as one component. -/
theorem join_component {t : Text} (nonempty : t ≠ []) (dot : t ≠ ".")
    (slash : ('/' : CodePoint) ∉ t) (p : FilePath) : p.join t = p.append [t] := by
  obtain ⟨c, r, rfl⟩ := List.exists_cons_of_ne_nil nonempty
  have other : ∀ d ∈ c :: r, d ≠ '/' := fun d hd eq => slash (eq ▸ hd)
  have relative : (c :: r).takeWhile (fun d : CodePoint => d == '/') = [] :=
    List.takeWhile_cons_of_neg (by simpa using other c List.mem_cons_self)
  have pieces : Text.splitOn '/' (c :: r) = [c :: r] := Text.splitOn_eq_singleton other
  rw [join, ofText, relative, pieces, List.filter_cons_of_pos (by simpa using dot)]
  rfl

/-- A name is joined to a path as one component. -/
theorem join_name {name : Text} (h : IsName name) (p : FilePath) : p.join name = p.append [name] :=
  join_component h.1 h.2.1 (fun slash => (h.2.2.2.2 _ slash).2 rfl) p

end FilePath

namespace FileTree

variable {tree tree' : FileTree} {path : FilePath} {place q : Place} {name t : Text}

/-- What is put where no directory stands leaves the directories. -/
theorem put_keeps (ne : place ≠ []) (free : tree.entry? place ≠ some .directory) (e : FileEntry) :
    Keeps tree (tree.put place e) where
  base := by unfold put; split <;> rfl
  cwd := by unfold put; split <;> rfl
  directory q stands := by
    rw [entry?_put ne, if_neg]
    · exact stands
    · rintro rfl
      exact free stands

/-- A path leads to a directory. -/
structure IsDirectoryAt (tree : FileTree) (path : FilePath) (place : Place) : Prop where
  /-- The path leads to the place. -/
  located : tree.locate path = .ok place
  /-- A directory stands there. -/
  directory : tree.entry? place = some .directory

namespace IsDirectoryAt

/-- A directory stays where it is as long as directories are kept. -/
theorem mono (h : tree.IsDirectoryAt path place) (keeps : Keeps tree tree') :
    tree'.IsDirectoryAt path place :=
  ⟨keeps.locate_eq_ok h.located, keeps.directory place h.directory⟩

/-- A name leads from a directory to a place in it. -/
theorem locate_child (h : tree.IsDirectoryAt path place) (named : IsName name) :
    tree.locate (path.append [name]) = .ok (place ++ [name]) := by
  obtain ⟨chars, s, start, walked⟩ := locate_eq_ok.mp h.located
  obtain ⟨-, -, back, short, clean⟩ := named
  have step : tree.walk (path.append [name]).toText place [name] = .ok (place ++ [name]) := by
    rw [walk_cons_eq_ok, if_neg back]
    exact ⟨h.directory, short, rfl⟩
  refine locate_eq_ok.mpr ⟨fun c hc => ?_, _, start?_append start [name],
    walk_append_eq_ok.mpr ⟨place, walk_text walked, step⟩⟩
  rcases FilePath.mem_toText_append (List.cons_ne_nil name []) hc with own | ⟨u, hu, hc⟩ | rfl
  · exact chars c own
  · rw [List.mem_singleton.mp hu] at hc
    exact (clean c hc).1
  · decide

end IsDirectoryAt

/-- Where a path leads to a place, nothing has to be made before. -/
theorem makeDirs_apply (located : tree.locate path = .ok place) :
    makeDirs path tree = makeDir path tree := by
  unfold makeDirs
  cases path.parts.length with
  | zero => rfl
  | succ rounds =>
      unfold makeDirsWithin
      simp only [bind_apply, get_apply, located]

namespace IsDirectoryAt

/-- A directory that is there is not made again. -/
theorem makeDirs_eq (h : tree.IsDirectoryAt path place) : makeDirs path tree = (.ok (), tree) := by
  rw [makeDirs_apply h.located]
  unfold makeDir
  simp only [bind_apply, get_apply, lift_apply, h.located, h.directory]
  rfl

/-- **A directory is made in a directory**, or stays if it is there. -/
theorem exists_makeDirs (h : tree.IsDirectoryAt path place) (named : IsName name)
    (free : tree.entry? (place ++ [name]) = none ∨
      tree.entry? (place ++ [name]) = some .directory) :
    ∃ tree' : FileTree, makeDirs (path.append [name]) tree = (.ok (), tree') ∧ Keeps tree tree' ∧
      tree'.entry? (place ++ [name]) = some .directory ∧
      ∀ q, q ≠ place ++ [name] → tree'.entry? q = tree.entry? q := by
  have located := h.locate_child named
  rcases free with free | stands
  · have ne : place ++ [name] ≠ [] := List.concat_ne_nil name place
    refine ⟨tree.put (place ++ [name]) .directory, ?_, put_keeps ne (by simp [free]) _, ?_, ?_⟩
    · rw [makeDirs_apply located]
      unfold makeDir
      simp only [bind_apply, get_apply, lift_apply, located, free]
      rfl
    · rw [entry?_put ne, if_pos rfl]
    · intro q other
      rw [entry?_put ne, if_neg other]
  · exact ⟨tree, makeDirs_eq ⟨located, stands⟩, ⟨rfl, rfl, fun _ => id⟩, stands, fun _ _ => rfl⟩

/-- **A file is written in a directory**, over another file or where nothing stands. -/
theorem exists_writeText (h : tree.IsDirectoryAt path place) (named : IsName name)
    (free : tree.entry? (place ++ [name]) ≠ some .directory) (scalar : t.isScalar = true) :
    ∃ tree' : FileTree, writeText (path.append [name]) t tree = (.ok (), tree') ∧ Keeps tree tree' ∧
      tree'.entry? (place ++ [name]) = some (.file (t.flatMap Utf8.encodeOne)) ∧
      ∀ q, q ≠ place ++ [name] → tree'.entry? q = tree.entry? q := by
  have ne : place ++ [name] ≠ [] := List.concat_ne_nil name place
  have parent : tree.entry? (place ++ [name]).dropLast = some .directory := by
    rw [List.dropLast_concat]
    exact h.directory
  refine ⟨_, writeText_eq_ok (h.locate_child named) parent free
    (Utf8.encode_eq_ok.mpr ⟨scalar, rfl⟩), put_keeps ne free _, ?_, ?_⟩
  · rw [entry?_put ne, if_pos rfl]
  · intro q other
    rw [entry?_put ne, if_neg other]

end IsDirectoryAt

/-! ### Runs of Actions -/

/-- **A run of actions keeps what each action keeps**: an invariant that grows with the elements
that are dealt with holds of all of them at the end. -/
theorem mapM_apply {α β : Type} {f : α → FileAction β} {g : α → β} {I : List α → FileTree → Prop}
    {xs : List α}
    (step : ∀ done x tree, x ∈ xs → I done tree →
      ∃ tree', f x tree = (.ok (g x), tree') ∧ I (done ++ [x]) tree')
    {done : List α} {tree : FileTree} (h : I done tree) :
    ∃ tree', xs.mapM f tree = (.ok (xs.map g), tree') ∧ I (done ++ xs) tree' := by
  induction xs generalizing done tree with
  | nil => exact ⟨tree, rfl, by rwa [List.append_nil]⟩
  | cons x xs ih =>
      obtain ⟨next, first, grown⟩ := step done x tree List.mem_cons_self h
      obtain ⟨last, rest, grown⟩ :=
        ih (fun done y tree mem => step done y tree (List.mem_cons_of_mem x mem)) grown
      refine ⟨last, ?_, by rwa [List.append_assoc] at grown⟩
      rw [List.mapM_cons, bind_apply, first]
      dsimp only
      rw [bind_apply, rest]
      rfl

end FileTree

end RouteDocs
