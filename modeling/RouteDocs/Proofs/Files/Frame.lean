import RouteDocs.Proofs.Files.Directory

/-!
# What Actions Leave Alone

What making directories and writing a file can change in a tree, however they end.

## Main Definitions

* `FileTree.Grows`: a tree has what another one has, and further directories
* `FileTree.Preserves`: an action keeps a property of trees, also when it fails

## Main Statements

* `FileTree.makeDirs_grows`: **making directories changes no file**
* `FileTree.exists_isDirectoryAt_of_makeDirs`: a path leads to the directory that was made for it
* `FileTree.IsDirectoryAt.makeDirs_cases`: a directory is made in a directory, or nothing changes
* `FileTree.IsDirectoryAt.writeText_cases`: a file is put in a directory, or nothing changes
* `FileTree.Preserves.mapM`: **a run of actions keeps what each action keeps, however it ends**

## Design Notes

`FileTree.mapM_apply` follows runs that succeed.  Here nothing is known of the end of an action, so
an invariant speaks of the tree alone.
-/

namespace RouteDocs

namespace FileTree

variable {tree tree' : FileTree} {path : FilePath} {place q : Place} {name t : Text}

/-! ### Trees That Grow -/

/-- A tree has what another one has, and further directories. -/
structure Grows (tree tree' : FileTree) : Prop where
  base : tree'.base = tree.base
  cwd : tree'.cwd = tree.cwd
  entry : ∀ q, FileTree.entry? tree' q = tree.entry? q ∨
    tree.entry? q = none ∧ FileTree.entry? tree' q = some .directory

namespace Grows

theorem refl (tree : FileTree) : Grows tree tree :=
  ⟨rfl, rfl, fun _ => .inl rfl⟩

theorem trans {tree'' : FileTree} (h : Grows tree tree') (h' : Grows tree' tree'') :
    Grows tree tree'' where
  base := h'.base.trans h.base
  cwd := h'.cwd.trans h.cwd
  entry q := by
    rcases h.entry q with same | ⟨none, made⟩
    · rw [← same]
      exact h'.entry q
    · rcases h'.entry q with same | ⟨gone, -⟩
      · exact .inr ⟨none, same.trans made⟩
      · rw [made] at gone
        cases gone

theorem keeps (h : Grows tree tree') : Keeps tree tree' where
  base := h.base
  cwd := h.cwd
  directory q stands := by
    rcases h.entry q with same | ⟨none, -⟩
    · exact same.trans stands
    · rw [none] at stands
      cases stands

/-- A directory where nothing stood is all that is new. -/
theorem put (ne : place ≠ []) (free : tree.entry? place = none) :
    Grows tree (tree.put place .directory) where
  base := by unfold FileTree.put; split <;> rfl
  cwd := by unfold FileTree.put; split <;> rfl
  entry q := by
    rw [entry?_put ne]
    split
    · next here => exact .inr ⟨here ▸ free, rfl⟩
    · exact .inl rfl

end Grows

/-! ### Making Directories -/

/-- **A directory is made where nothing stood**, or nothing changes. -/
theorem makeDir_cases (path : FilePath) (tree : FileTree) :
    (∃ e, makeDir path tree = (.error e, tree)) ∨
    (∃ place, tree.IsDirectoryAt path place ∧ makeDir path tree = (.ok (), tree)) ∨
    ∃ place, tree.locate path = .ok place ∧ place ≠ [] ∧ tree.entry? place = none ∧
      makeDir path tree = (.ok (), tree.put place .directory) := by
  unfold makeDir
  cases located : tree.locate path with
  | error e =>
      simp only [bind_apply, get_apply, lift_apply, located]
      exact .inl ⟨e, rfl⟩
  | ok place =>
      simp only [bind_apply, get_apply, lift_apply, located]
      cases stands : tree.entry? place with
      | none =>
          refine .inr (.inr ⟨place, rfl, ?_, stands, rfl⟩)
          rintro rfl
          cases stands
      | some e =>
          cases e with
          | file bytes => exact .inl ⟨_, rfl⟩
          | directory => exact .inr (.inl ⟨place, ⟨located, stands⟩, rfl⟩)

theorem makeDir_grows (path : FilePath) (tree : FileTree) : Grows tree (makeDir path tree).2 := by
  rcases makeDir_cases path tree with ⟨e, failed⟩ | ⟨place, -, there⟩ | ⟨place, -, ne, free, made⟩
  · rw [failed]
    exact .refl tree
  · rw [there]
    exact .refl tree
  · rw [made]
    exact .put ne free

/-- Where a directory was made, the path leads to it. -/
theorem exists_isDirectoryAt_of_makeDir (made : makeDir path tree = (.ok (), tree')) :
    ∃ place, tree'.IsDirectoryAt path place := by
  rcases makeDir_cases path tree with ⟨e, failed⟩ | ⟨place, is, there⟩ |
    ⟨place, located, ne, free, new⟩
  · rw [failed] at made
    cases congrArg Prod.fst made
  · rw [there] at made
    obtain rfl : tree = tree' := congrArg Prod.snd made
    exact ⟨place, is⟩
  · rw [new] at made
    obtain rfl : tree.put place .directory = tree' := congrArg Prod.snd made
    refine ⟨place, (Grows.put ne free).keeps.locate_eq_ok located, ?_⟩
    rw [entry?_put ne, if_pos rfl]

/-- Before a directory is made, at most the directories that it needs are made. -/
theorem makeDirsWithin_succ (rounds : Nat) (path : FilePath) (tree : FileTree) :
    (∃ e tree', makeDirsWithin (rounds + 1) path tree = (.error e, tree') ∧
      tree' = (makeDirsWithin rounds path.parent tree).2) ∨
    makeDirsWithin (rounds + 1) path tree = makeDir path tree ∨
    makeDirsWithin (rounds + 1) path tree =
      makeDir path (makeDirsWithin rounds path.parent tree).2 := by
  have missing : ∀ p, tree.locate path = .error (.notFound p) →
      makeDirsWithin (rounds + 1) path tree =
        (makeDirsWithin rounds path.parent >>= fun _ => makeDir path) tree := by
    intro p missing
    rw [makeDirsWithin]
    simp only [bind_apply, get_apply, missing]
  have present : (∀ p, tree.locate path ≠ .error (.notFound p)) →
      makeDirsWithin (rounds + 1) path tree = makeDir path tree := by
    intro present
    rw [makeDirsWithin]
    simp only [bind_apply, get_apply]
  by_cases found : ∃ p, tree.locate path = .error (.notFound p)
  · obtain ⟨p, found⟩ := found
    rw [missing p found, bind_apply]
    rcases makeDirsWithin rounds path.parent tree with ⟨result, tree'⟩
    cases result with
    | error e => exact .inl ⟨e, tree', rfl, rfl⟩
    | ok _ => exact .inr (.inr rfl)
  · exact .inr (.inl (present (not_exists.mp found)))

theorem makeDirsWithin_grows (rounds : Nat) (path : FilePath) (tree : FileTree) :
    Grows tree (makeDirsWithin rounds path tree).2 := by
  induction rounds generalizing path with
  | zero => exact makeDir_grows path tree
  | succ rounds ih =>
      rcases makeDirsWithin_succ rounds path tree with ⟨e, tree', failed, rfl⟩ | direct | above
      · rw [failed]
        exact ih path.parent
      · rw [direct]
        exact makeDir_grows path tree
      · rw [above]
        exact (ih path.parent).trans (makeDir_grows path _)

/-- **Making directories changes no file.** -/
theorem makeDirs_grows (path : FilePath) (tree : FileTree) : Grows tree (makeDirs path tree).2 :=
  makeDirsWithin_grows _ path tree

/-- **A path leads to the directory that was made for it.** -/
theorem exists_isDirectoryAt_of_makeDirs (made : makeDirs path tree = (.ok (), tree')) :
    ∃ place, tree'.IsDirectoryAt path place := by
  unfold makeDirs at made
  cases rounds : path.parts.length with
  | zero =>
      rw [rounds] at made
      exact exists_isDirectoryAt_of_makeDir made
  | succ rounds' =>
      rw [rounds] at made
      rcases makeDirsWithin_succ rounds' path tree with ⟨e, tree'', failed, -⟩ | direct | above
      · rw [failed] at made
        cases congrArg Prod.fst made
      · rw [direct] at made
        exact exists_isDirectoryAt_of_makeDir made
      · rw [above] at made
        exact exists_isDirectoryAt_of_makeDir made

/-! ### In a Directory -/

/-- A walk goes on from where its first part leads. -/
theorem walk_append {text : Text} {p : Place} {a : List Text} (h : tree.walk text p a = .ok q)
    (b : List Text) : tree.walk text p (a ++ b) = tree.walk text q b := by
  induction a generalizing p with
  | nil =>
      obtain rfl : p = q := Except.ok.inj h
      rfl
  | cons part a ih =>
      obtain ⟨directory, rest⟩ := walk_cons_eq_ok.mp h
      rw [List.cons_append, walk]
      simp only [directory, beq_iff_eq, List.isEmpty_iff]
      by_cases back : part = ".."
      · rw [if_pos back] at rest ⊢
        rw [if_neg rest.1, ih rest.2]
      · rw [if_neg back] at rest ⊢
        rw [if_neg (Nat.not_lt.mpr rest.1), ih rest.2]

/-- **A component leads from a directory to a place in it**, unless it is no name. -/
theorem IsDirectoryAt.locate_component (h : tree.IsDirectoryAt path place)
    (component : IsComponent name) :
    tree.locate (path.append [name]) = .ok (place ++ [name]) ∨
      ∃ e, tree.locate (path.append [name]) = .error e ∧ ∀ p, e ≠ .notFound p := by
  obtain ⟨-, s, start, walked⟩ := locate_eq_ok.mp h.located
  have last : tree.walk (path.append [name]).toText s.1 (s.2 ++ [name]) =
      if maxNameSize < nameSize name then .error (.nameTooLong (path.append [name]).toText)
      else .ok (place ++ [name]) := by
    rw [walk_append (walk_text walked), walk, h.directory]
    simp only [beq_iff_eq, if_neg component.not_back, walk]
  have walks : tree.locate (path.append [name]) =
      tree.walk (path.append [name]).toText s.1 (s.2 ++ [name]) ∨
      ∃ e, tree.locate (path.append [name]) = .error e ∧ ∀ p, e ≠ .notFound p := by
    have start' := start?_append start [name]
    unfold start? at start'
    unfold locate
    dsimp only
    split
    · exact .inr ⟨_, rfl, fun p same => by cases same⟩
    · split
      · exact .inr ⟨_, rfl, fun p same => by cases same⟩
      · split
        · next absolute =>
          rw [if_pos absolute] at start'
          obtain ⟨below, found, same⟩ := Option.map_eq_some_iff.mp start'
          obtain ⟨first, rest⟩ := Prod.mk.inj same
          rw [found, ← first, ← rest]
          exact .inl rfl
        · next relative =>
          rw [if_neg relative] at start'
          obtain ⟨first, rest⟩ := Prod.mk.inj (Option.some.inj start')
          rw [← first, ← rest]
          exact .inl rfl
  rcases walks with eq | refused
  · rw [eq, last]
    split
    · exact .inr ⟨_, rfl, fun p same => by cases same⟩
    · exact .inl rfl
  · exact .inr refused

/-- **A directory is made in a directory**, or nothing changes. -/
theorem IsDirectoryAt.makeDirs_cases (h : tree.IsDirectoryAt path place)
    (component : IsComponent name) :
    (∃ e, makeDirs (path.append [name]) tree = (.error e, tree)) ∨
    ∃ tree', makeDirs (path.append [name]) tree = (.ok (), tree') ∧
      tree'.IsDirectoryAt (path.append [name]) (place ++ [name]) ∧ Grows tree tree' ∧
      ∀ q, q ≠ place ++ [name] → tree'.entry? q = tree.entry? q := by
  rcases h.locate_component component with located | ⟨e, refused, other⟩
  · rw [makeDirs_apply located]
    rcases makeDir_cases (path.append [name]) tree with ⟨e, failed⟩ | ⟨p, is, there⟩ |
      ⟨p, located', ne, free, made⟩
    · exact .inl ⟨e, failed⟩
    · obtain rfl : p = place ++ [name] := Except.ok.inj (is.located.symm.trans located)
      exact .inr ⟨tree, there, is, .refl tree, fun _ _ => rfl⟩
    · obtain rfl : p = place ++ [name] := Except.ok.inj (located'.symm.trans located)
      have grows := Grows.put ne free
      refine .inr ⟨_, made, ⟨grows.keeps.locate_eq_ok located, ?_⟩, grows, fun q apart => ?_⟩
      · rw [entry?_put ne, if_pos rfl]
      · rw [entry?_put ne, if_neg apart]
  · have direct : makeDirs (path.append [name]) tree = makeDir (path.append [name]) tree := by
      unfold makeDirs
      cases (path.append [name]).parts.length with
      | zero => rfl
      | succ rounds =>
          rw [makeDirsWithin]
          simp only [bind_apply, get_apply, refused]
          cases e with
          | notFound p => exact absurd rfl (other p)
          | _ => rfl
    have failed : makeDir (path.append [name]) tree = (.error e, tree) := by
      unfold makeDir
      simp only [bind_apply, get_apply, lift_apply, refused]
    exact .inl ⟨e, direct.trans failed⟩

/-- **A file is put in a directory**, where no directory stands, or nothing changes. -/
theorem IsDirectoryAt.writeText_cases (h : tree.IsDirectoryAt path place)
    (component : IsComponent name) (scalar : t.isScalar = true) :
    (∃ e, writeText (path.append [name]) t tree = (.error e, tree)) ∨
    ∃ tree', writeText (path.append [name]) t tree = (.ok (), tree') ∧ Keeps tree tree' ∧
      tree'.entry? (place ++ [name]) = some (.file (t.flatMap Utf8.encodeOne)) ∧
      ∀ q, q ≠ place ++ [name] → tree'.entry? q = tree.entry? q := by
  rcases FileTree.writeText_cases (path.append [name]) scalar tree with failed |
    ⟨q, located, ne, free, written⟩
  · exact .inl failed
  · obtain rfl : q = place ++ [name] := by
      rcases h.locate_component component with there | ⟨e, refused, -⟩
      · exact Except.ok.inj (located.symm.trans there)
      · rw [refused] at located
        cases located
    refine .inr ⟨_, written, put_keeps ne free _, ?_, fun q apart => ?_⟩
    · rw [entry?_put ne, if_pos rfl]
    · rw [entry?_put ne, if_neg apart]

/-! ### Runs -/

/-- An action keeps a property of trees, also when it fails. -/
def Preserves {ε α : Type} (I : FileTree → Prop) (x : ExceptT ε (StateM FileTree) α) : Prop :=
  ∀ tree, I tree → I (x tree).2

namespace Preserves

variable {ε α β : Type} {I : FileTree → Prop}

theorem bind {x : ExceptT ε (StateM FileTree) α} {f : α → ExceptT ε (StateM FileTree) β}
    (hx : Preserves I x) (hf : ∀ a, Preserves I (f a)) : Preserves I (x >>= f) := by
  intro tree h
  have first := hx tree h
  rw [bind_apply]
  generalize x tree = outcome at first ⊢
  obtain ⟨result, tree'⟩ := outcome
  cases result with
  | error e => exact first
  | ok a => exact hf a tree' first

/-- **A run of actions keeps what each action keeps**, however it ends. -/
theorem mapM {f : α → ExceptT ε (StateM FileTree) β} {xs : List α}
    (step : ∀ x ∈ xs, Preserves I (f x)) : Preserves I (xs.mapM f) := by
  induction xs with
  | nil => exact fun tree h => h
  | cons x xs ih =>
      rw [List.mapM_cons]
      refine (step x List.mem_cons_self).bind fun b => ?_
      exact (ih fun y mem => step y (List.mem_cons_of_mem x mem)).bind fun bs tree h => h

end Preserves

/-- A run of actions that succeeds tells what each action tells. -/
theorem eq_map_of_mapM {α β : Type} {f : α → FileAction β} {g : α → β} {xs : List α}
    (each : ∀ x ∈ xs, ∀ tree b, (f x tree).1 = .ok b → b = g x) {tree : FileTree} {bs : List β}
    (told : (xs.mapM f tree).1 = .ok bs) : bs = xs.map g := by
  induction xs generalizing tree bs with
  | nil => exact (Except.ok.inj told).symm
  | cons x xs ih =>
      have first := each x List.mem_cons_self tree
      rw [List.mapM_cons, bind_apply] at told
      generalize f x tree = outcome at first told
      obtain ⟨result, tree'⟩ := outcome
      cases result with
      | error e => cases told
      | ok b =>
          have rest : ∀ cs, (xs.mapM f tree').1 = .ok cs → cs = xs.map g :=
            fun _ => ih fun y mem => each y (List.mem_cons_of_mem x mem)
          dsimp only at told
          rw [bind_apply] at told
          generalize xs.mapM f tree' = outcome at rest told
          obtain ⟨result, tree''⟩ := outcome
          cases result with
          | error e => cases told
          | ok cs =>
              obtain rfl : b :: cs = bs := Except.ok.inj told
              rw [first b rfl, rest cs rfl]
              rfl

end FileTree

end RouteDocs
