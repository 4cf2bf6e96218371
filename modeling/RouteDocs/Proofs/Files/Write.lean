import RouteDocs.Proofs.Files.Tree
import RouteDocs.Proofs.Text.Utf8

/-!
# Files That Are Written

A text that is written over a file is what is read from it.

## Main Statements

* `FileTree.bind_apply`, `FileTree.get_apply`, `FileTree.lift_apply`: what actions do with a tree
* `FileTree.readBytes_eq_ok`, `FileTree.readText_eq_ok`: what is read from a path
* `FileTree.writeText_eq_ok`: a text is put as bytes where a file can stand
* `FileTree.writeText_outcome`: **how writing ends**, for any path and any text
* `FileTree.writeText_cases`, `FileTree.writeText_ok_or_unchanged`: a scalar text is put at one
  place, or nothing changes
* `FileTree.eq_put_of_writeText`: what is written is put where the path leads
* `FileTree.readText_of_writeText`: **what was written is read back**
* `FileTree.WellFormed.exists_write_read`: over a file, a scalar text is written and read back
-/

namespace RouteDocs

/-- A text without carriage returns has its line ends as line feeds. -/
theorem Text.universalNewlines_eq_self {t : Text} (h : ∀ c ∈ t, c ≠ '\r') :
    t.universalNewlines = t := by
  show universalNewlinesFrom false t = t
  induction t with
  | nil => rfl
  | cons c r ih =>
      have first : ¬(c == '\r') = true := by simpa using h c (by simp)
      rw [universalNewlinesFrom, if_neg first, ih fun d hd => h d (List.mem_cons_of_mem c hd)]
      rfl

namespace FileTree

/-! ### Actions on Trees -/

section

variable {ε α β : Type} (tree : FileTree)

/-- One action after another one, from a tree on. -/
theorem bind_apply (x : ExceptT ε (StateM FileTree) α) (f : α → ExceptT ε (StateM FileTree) β) :
    (x >>= f) tree = match x tree with
      | (.ok a, tree') => f a tree'
      | (.error e, tree') => (.error e, tree') := by
  show (match x tree with
    | (a, tree') => ExceptT.bindCont f a tree') = _
  cases x tree with
  | mk result tree' => cases result <;> rfl

theorem get_apply : (get : ExceptT ε (StateM FileTree) FileTree) tree = (.ok tree, tree) := rfl

theorem lift_apply (r : Except ε α) :
    (liftM r : ExceptT ε (StateM FileTree) α) tree = (r, tree) := rfl

end

/-! ### Writing over a File -/

variable {tree : FileTree} {path : FilePath} {place : Place} {bytes : List UInt8} {t old : Text}

/-- What is read from a path is what stands at its place. -/
theorem readBytes_eq_ok : tree.readBytes path = .ok bytes ↔
    ∃ place, tree.locate path = .ok place ∧ tree.entry? place = some (.file bytes) := by
  unfold readBytes
  cases located : tree.locate path with
  | error e => simp [bind, Except.bind]
  | ok place =>
      cases stands : tree.entry? place with
      | none => simp [bind, Except.bind, stands]
      | some e => cases e <;> simp [bind, Except.bind, stands]

/-- A text that stands at a place is read from it. -/
theorem readText_eq_ok (located : tree.locate path = .ok place)
    (stands : tree.entry? place = some (.file bytes)) (encoded : Utf8.encode t = .ok bytes)
    (lines : ∀ c ∈ t, c ≠ '\r') : tree.readText path = .ok t := by
  unfold readText
  rw [readBytes_eq_ok.mpr ⟨place, located, stands⟩]
  simp only [bind, Except.bind, Utf8.decode_encode encoded, Text.universalNewlines_eq_self lines]

/-- A scalar text is put as bytes where a file can stand. -/
theorem writeText_eq_ok (located : tree.locate path = .ok place)
    (parent : tree.entry? place.dropLast = some .directory)
    (no_directory : tree.entry? place ≠ some .directory) (encoded : Utf8.encode t = .ok bytes) :
    writeText path t tree = (.ok (), tree.put place (.file bytes)) := by
  have open? : tree.hasDirectory place.dropLast = true := by
    rw [hasDirectory, parent]
    rfl
  have free : tree.hasDirectory place = false := by
    rw [hasDirectory]
    simpa using no_directory
  unfold writeText
  simp only [bind_apply, get_apply, located, lift_apply, open?, free, encoded, Bool.not_true,
    Bool.false_eq_true, if_false]
  rfl

/-- **How writing ends**: nothing changes, or the file stands where the path leads, and it is empty
if its text has no encoding. -/
theorem writeText_outcome (path : FilePath) (t : Text) (tree : FileTree) :
    (∃ e, writeText path t tree = (.error e, tree)) ∨
    ∃ place, tree.locate path = .ok place ∧ place ≠ [] ∧ tree.entry? place ≠ some .directory ∧
      ((∃ bytes, Utf8.encode t = .ok bytes ∧
          writeText path t tree = (.ok (), tree.put place (.file bytes))) ∨
        ∃ e, Utf8.encode t = .error e ∧
          writeText path t tree = (.error (.unencodable e), tree.put place (.file []))) := by
  unfold writeText
  cases located : tree.locate path with
  | error e =>
      simp only [bind_apply, get_apply, lift_apply, located]
      exact .inl ⟨e, rfl⟩
  | ok place =>
      simp only [bind_apply, get_apply, lift_apply, located]
      cases parent : tree.hasDirectory place.dropLast with
      | false => exact .inl ⟨_, rfl⟩
      | true =>
          cases occupied : tree.hasDirectory place with
          | true => exact .inl ⟨_, rfl⟩
          | false =>
              have free : tree.entry? place ≠ some .directory := by
                simpa [hasDirectory] using occupied
              have ne : place ≠ [] := by
                rintro rfl
                exact free rfl
              refine .inr ⟨place, rfl, ne, free, ?_⟩
              cases Utf8.encode t with
              | ok bytes => exact .inl ⟨bytes, rfl, rfl⟩
              | error e => exact .inr ⟨e, rfl, rfl⟩

/-- **A scalar text is put at one place**, where no directory stands, or nothing changes. -/
theorem writeText_cases (path : FilePath) (scalar : t.isScalar = true) (tree : FileTree) :
    (∃ e, writeText path t tree = (.error e, tree)) ∨
    ∃ place, tree.locate path = .ok place ∧ place ≠ [] ∧ tree.entry? place ≠ some .directory ∧
      writeText path t tree = (.ok (), tree.put place (.file (t.flatMap Utf8.encodeOne))) := by
  have encoded : Utf8.encode t = .ok (t.flatMap Utf8.encodeOne) :=
    Utf8.encode_eq_ok.mpr ⟨scalar, rfl⟩
  rcases writeText_outcome path t tree with failed | ⟨place, located, ne, free, written | failed⟩
  · exact .inl failed
  · obtain ⟨bytes, same, written⟩ := written
    obtain rfl := Except.ok.inj (encoded.symm.trans same)
    exact .inr ⟨place, located, ne, free, written⟩
  · obtain ⟨e, refused, -⟩ := failed
    rw [encoded] at refused
    cases refused

/-- **A scalar text is written, or nothing changes.** -/
theorem writeText_ok_or_unchanged (path : FilePath) (scalar : t.isScalar = true)
    (tree : FileTree) :
    (writeText path t tree).1 = .ok () ∨ (writeText path t tree).2 = tree := by
  rcases writeText_cases path scalar tree with ⟨e, failed⟩ | ⟨place, -, -, -, written⟩
  · exact .inr (congrArg Prod.snd failed)
  · exact .inl (congrArg Prod.fst written)

/-- **What is written is put where the path leads**, over a file or where nothing stands. -/
theorem eq_put_of_writeText {tree' : FileTree}
    (written : writeText path t tree = (.ok (), tree')) :
    ∃ place bytes, tree.locate path = .ok place ∧ place ≠ [] ∧
      tree.entry? place ≠ some .directory ∧ Utf8.encode t = .ok bytes ∧
      tree' = tree.put place (.file bytes) := by
  rcases writeText_outcome path t tree with ⟨e, failed⟩ | ⟨place, located, ne, free, put | failed⟩
  · cases congrArg Prod.fst (written.symm.trans failed)
  · obtain ⟨bytes, encoded, put⟩ := put
    exact ⟨place, bytes, located, ne, free, encoded,
      congrArg Prod.snd (written.symm.trans put)⟩
  · obtain ⟨e, -, failed⟩ := failed
    cases congrArg Prod.fst (written.symm.trans failed)

/-- **What was written is read back**, whether or not there was a file before. -/
theorem readText_of_writeText {tree' : FileTree}
    (written : writeText path t tree = (.ok (), tree')) (lines : ∀ c ∈ t, c ≠ '\r') :
    tree'.readText path = .ok t := by
  obtain ⟨place, bytes, located, ne, free, encoded, rfl⟩ := eq_put_of_writeText written
  have located' : (tree.put place (.file bytes)).locate path = .ok place :=
    (put_differsAt ne free bytes).locate_eq_ok_iff.mpr located
  have stands : FileTree.entry? (tree.put place (.file bytes)) place = some (.file bytes) := by
    rw [entry?_put ne, if_pos rfl]
  exact readText_eq_ok located' stands encoded lines

/-- **What is written over a file is read back**, and the tree stays well-formed. -/
theorem WellFormed.exists_write_read (wf : tree.WellFormed) (read : tree.readText path = .ok old)
    (scalar : t.isScalar = true) (lines : ∀ c ∈ t, c ≠ '\r') :
    ∃ tree', writeText path t tree = (.ok (), tree') ∧ tree'.WellFormed ∧
      tree'.readText path = .ok t := by
  obtain ⟨bytes, encoded⟩ : ∃ bytes, Utf8.encode t = .ok bytes :=
    ⟨_, Utf8.encode_eq_ok.mpr ⟨scalar, rfl⟩⟩
  obtain ⟨before, place, located, stands⟩ :
      ∃ before place, tree.locate path = .ok place ∧ tree.entry? place = some (.file before) := by
    unfold readText at read
    cases first : tree.readBytes path with
    | error e => simp [first, bind, Except.bind] at read
    | ok before => exact ⟨before, readBytes_eq_ok.mp first⟩
  have ne : place ≠ [] := by
    rintro rfl
    cases stands
  have no_directory : tree.entry? place ≠ some .directory := by
    rw [stands]
    simp
  have listed : (place, .file before) ∈ tree.entries := mem_entries_of_eq_some ne stands
  have parent := wf.parent _ listed
  -- A file is no part of any way, so that the path leads to the same place afterwards.
  have located' : (tree.put place (.file bytes)).locate path = .ok place :=
    (put_differsAt ne no_directory bytes).locate_eq_ok_iff.mpr located
  have stands' : FileTree.entry? (tree.put place (.file bytes)) place = some (.file bytes) := by
    rw [entry?_put ne, if_pos rfl]
  exact ⟨_, writeText_eq_ok located parent no_directory encoded,
    wf.put_file ne (wf.names _ listed) parent no_directory bytes,
    readText_eq_ok located' stands' encoded lines⟩

end FileTree

end RouteDocs
