import Mathlib.Data.List.Induction
import Mathlib.Data.List.Nodup
import RouteDocs.Files.Tree
import RouteDocs.Proofs.Text.Join

/-!
# Paths in a File Tree

Which place a path leads to, and how far that depends on the files of the tree.

## Main Definitions

* `IsName`: the names that a directory can give to its entries
* `FileTree.WellFormed`: every entry stands once, under names, in directories
* `FileTree.Keeps`: a tree has all directories of another one
* `FileTree.DiffersAt`: two trees differ at one place only, where neither has a directory

## Main Statements

* `FileTree.walk_cons_eq_ok`: everything a step of a walk demands
* `FileTree.WellFormed.locate_below`: the entries below a directory are reached through its path
* `FileTree.WellFormed.mem_filesBelow`: the listed files are the files that stand below a directory
* `FileTree.Keeps.locate_eq_ok`: paths lead where they led as long as directories are kept
* `FileTree.DiffersAt.locate_eq_ok_iff`: files do not change where paths lead

## Design Notes

A walk needs directories on its way and nothing else of the tree, so two trees that differ in a file
lead the same paths to the same places.  The reports of failed walks may differ, which is why
`locate_eq_ok_iff` speaks of success only.
-/

namespace RouteDocs

namespace FilePath

theorem partsAfter?_eq_some {base parts rest : List Text} :
    partsAfter? base parts = some rest ↔ parts = base ++ rest := by
  induction base generalizing parts with
  | nil => simp [partsAfter?]
  | cons b base ih =>
      cases parts with
      | nil => simp [partsAfter?]
      | cons p parts =>
          by_cases same : b = p
          · simp [partsAfter?, same, ih]
          · simp [partsAfter?, same, Ne.symm same]

/-- The path with further components. -/
def append (p : FilePath) (parts : List Text) : FilePath :=
  { p with parts := p.parts ++ parts }

@[simp] theorem append_root (p : FilePath) (parts : List Text) : (p.append parts).root = p.root :=
  rfl

@[simp] theorem append_parts (p : FilePath) (parts : List Text) :
    (p.append parts).parts = p.parts ++ parts := rfl

theorem append_injective (p : FilePath) : Function.Injective p.append := fun _ _ same =>
  List.append_cancel_left (congrArg FilePath.parts same)

theorem relativeTo?_append {p base below : FilePath} (h : p.relativeTo? base = some below)
    (parts : List Text) : (p.append parts).relativeTo? base = some (below.append parts) := by
  unfold relativeTo? at h ⊢
  rw [append_root]
  split at h
  · next same =>
    rw [if_pos same]
    obtain ⟨rest, found, rfl⟩ := Option.map_eq_some_iff.mp h
    have split_parts : (p.append parts).parts = base.parts ++ (rest ++ parts) := by
      rw [append_parts, partsAfter?_eq_some.mp found, List.append_assoc]
    rw [partsAfter?_eq_some.mpr split_parts]
    rfl
  · cases h

/-- Code points in the text of a longer path come from the path, from what is appended, or are
slashes. -/
theorem mem_toText_append {p : FilePath} {parts : List Text} {c : CodePoint}
    (nonempty : parts ≠ []) (hc : c ∈ (p.append parts).toText) :
    c ∈ p.toText ∨ (∃ t ∈ parts, c ∈ t) ∨ c = '/' := by
  have parts_ne : p.parts ++ parts ≠ [] := by simp [nonempty]
  have own : ∀ d, (d ∈ p.root ∨ ∃ t ∈ p.parts, d ∈ t) → d ∈ p.toText := by
    intro d hd
    unfold toText
    split
    · next empty =>
      simp only [Bool.and_eq_true, List.isEmpty_iff] at empty
      simp [empty] at hd
    · rcases hd with hd | ⟨t, ht, hd⟩
      · exact List.mem_append_left _ hd
      · exact List.mem_append_right _ (Text.mem_join_of_mem ht hd)
  simp only [toText, append_root, append_parts, Bool.and_eq_true, List.isEmpty_iff, parts_ne,
    and_false, if_false, List.mem_append] at hc
  rcases hc with hroot | hjoin
  · exact Or.inl (own c (Or.inl hroot))
  · rcases Text.mem_of_mem_join hjoin with slash | ⟨t, ht, hc⟩
    · exact Or.inr (Or.inr (by simpa [Text.ofString] using slash))
    · rcases List.mem_append.mp ht with ht | ht
      · exact Or.inl (own c (Or.inr ⟨t, ht, hc⟩))
      · exact Or.inr (Or.inl ⟨t, ht, hc⟩)

end FilePath

/-! ### Names -/

/-- Whether a code point can stand in a path: a null character cannot, and a surrogate only for a
byte. -/
def IsPathChar (c : CodePoint) : Prop :=
  c.val ≠ 0 ∧ (c.isSurrogate → isNameByte c)

instance (c : CodePoint) : Decidable (IsPathChar c) :=
  inferInstanceAs (Decidable (_ ∧ _))

/-- **Names of entries**: not empty, not too long, neither of the two names that directories have
for themselves and for their parents, and of code points that stand in paths other than the
slash. -/
def IsName (name : Text) : Prop :=
  name ≠ [] ∧ name ≠ "." ∧ name ≠ ".." ∧ nameSize name ≤ maxNameSize ∧
    ∀ c ∈ name, IsPathChar c ∧ c ≠ '/'

-- The condition on the code points is to be decided along the name, not over all code points.
instance (name : Text) : Decidable (IsName name) :=
  have := List.decidableBAll (fun c => IsPathChar c ∧ c ≠ '/') name
  inferInstanceAs (Decidable (_ ∧ _))

theorem firstStray_eq_none {i : Nat} {t : Text} :
    firstStray i t = none ↔ ∀ c ∈ t, c.isSurrogate → isNameByte c := by
  induction t generalizing i with
  | nil => simp [firstStray]
  | cons c r ih =>
      by_cases stray : c.isSurrogate = true ∧ isNameByte c = false
      · simp [firstStray, stray]
      · have harmless : (c.isSurrogate && !isNameByte c) = false := by
          simpa using stray
        have own : c.isSurrogate = true → isNameByte c = true := by simpa using stray
        simp only [firstStray, harmless, Bool.false_eq_true, if_false, ih, List.mem_cons,
          forall_eq_or_imp]
        exact ⟨fun h => ⟨own, h⟩, fun h => h.2⟩

namespace FileTree

/-! ### Walks -/

variable {tree tree' : FileTree} {text text' : Text} {place q : Place}

/-- **One step of a walk**: it starts in a directory and leads back, or on under a name that is not
too long. -/
theorem walk_cons_eq_ok {part : Text} {more : List Text} :
    tree.walk text place (part :: more) = .ok q ↔
      tree.entry? place = some .directory ∧
        if part = ".." then place ≠ [] ∧ tree.walk text place.dropLast more = .ok q
        else nameSize part ≤ maxNameSize ∧ tree.walk text (place ++ [part]) more = .ok q := by
  rw [walk]
  split
  · next absent => simp [absent]
  · next file => simp [file]
  · next directory =>
    simp only [directory, true_and, beq_iff_eq]
    by_cases back : part = ".."
    · cases place <;> simp [back]
    · by_cases long : maxNameSize < nameSize part
      · have not_short : ¬ nameSize part ≤ maxNameSize := Nat.not_le.mpr long
        simp [back, long, not_short]
      · have short : nameSize part ≤ maxNameSize := Nat.le_of_not_lt long
        simp [back, long, short]

theorem walk_append_eq_ok {a b : List Text} :
    tree.walk text place (a ++ b) = .ok q ↔
      ∃ p, tree.walk text place a = .ok p ∧ tree.walk text p b = .ok q := by
  induction a generalizing place with
  | nil => simp [walk]
  | cons part a ih =>
      simp only [List.cons_append, walk_cons_eq_ok]
      by_cases back : part = ".."
      · simp only [back, if_true, ih]
        constructor
        · rintro ⟨directory, inside, p, first, second⟩
          exact ⟨p, ⟨directory, inside, first⟩, second⟩
        · rintro ⟨p, ⟨directory, inside, first⟩, second⟩
          exact ⟨directory, inside, p, first, second⟩
      · simp only [back, if_false, ih]
        constructor
        · rintro ⟨directory, short, p, first, second⟩
          exact ⟨p, ⟨directory, short, first⟩, second⟩
        · rintro ⟨p, ⟨directory, short, first⟩, second⟩
          exact ⟨directory, short, p, first, second⟩

/-- The text of the path appears in reports only. -/
theorem walk_text {parts : List Text} (h : tree.walk text place parts = .ok q) :
    tree.walk text' place parts = .ok q := by
  induction parts generalizing place with
  | nil => simpa [walk] using h
  | cons part more ih =>
      rw [walk_cons_eq_ok] at h ⊢
      refine ⟨h.1, ?_⟩
      split
      · next back =>
        have step := h.2
        rw [if_pos back] at step
        exact ⟨step.1, ih step.2⟩
      · next back =>
        have step := h.2
        rw [if_neg back] at step
        exact ⟨step.1, ih step.2⟩

/-- Where the walk of a path begins, with the components it follows. -/
def start? (tree : FileTree) (path : FilePath) : Option (Place × List Text) :=
  if path.isAbsolute then (path.relativeTo? tree.base).map fun below => ([], below.parts)
  else some (tree.cwd, path.parts)

/-- A path leads to a place if its code points stand in paths and a walk leads there. -/
theorem locate_eq_ok {path : FilePath} :
    tree.locate path = .ok q ↔ (∀ c ∈ path.toText, IsPathChar c) ∧
      ∃ s, tree.start? path = some s ∧ tree.walk path.toText s.1 s.2 = .ok q := by
  have chars : (∀ c ∈ path.toText, IsPathChar c) ↔
      firstStray 0 path.toText = none ∧ path.toText.any (fun c => c.val == 0) = false := by
    simp only [IsPathChar, firstStray_eq_none, List.any_eq_false, beq_iff_eq]
    exact ⟨fun h => ⟨fun c hc => (h c hc).2, fun c hc => (h c hc).1⟩,
      fun h c hc => ⟨h.2 c hc, h.1 c hc⟩⟩
  rw [chars]
  unfold locate
  dsimp only
  split
  · next e stray => simp [stray]
  · next stray =>
    by_cases null : (path.toText.any fun c => c.val == 0) = true
    · simp [stray, null]
    · by_cases absolute : path.isAbsolute = true
      · cases h : path.relativeTo? tree.base <;> simp [stray, null, absolute, start?, h]
      · simp [stray, null, absolute, start?]

theorem start?_append {path : FilePath} {s : Place × List Text} (h : tree.start? path = some s)
    (parts : List Text) : tree.start? (path.append parts) = some (s.1, s.2 ++ parts) := by
  unfold start? at h ⊢
  have same : (path.append parts).isAbsolute = path.isAbsolute := rfl
  rw [same]
  split at h
  · next absolute =>
    obtain ⟨below, found, rfl⟩ := Option.map_eq_some_iff.mp h
    rw [if_pos absolute, FilePath.relativeTo?_append found]
    rfl
  · next relative =>
    rw [if_neg relative]
    cases h
    rfl

/-! ### Well-formed trees -/

/-- **Well-formed trees**: no place has two entries, and each entry stands under names in a
directory. -/
structure WellFormed (tree : FileTree) : Prop where
  /-- Each place is listed once. -/
  nodup : (tree.entries.map (·.1)).Nodup
  /-- The base directory is not listed. -/
  place_ne_nil : ∀ p ∈ tree.entries, p.1 ≠ []
  /-- Components are names. -/
  names : ∀ p ∈ tree.entries, ∀ name ∈ p.1, IsName name
  /-- An entry stands in a directory. -/
  parent : ∀ p ∈ tree.entries, tree.entry? p.1.dropLast = some .directory

theorem mem_entries_of_eq_some {e : FileEntry} (ne : place ≠ []) (h : tree.entry? place = some e) :
    (place, e) ∈ tree.entries := by
  simp only [List.isEmpty_iff, entry?, ne, if_false] at h
  obtain ⟨⟨p, e'⟩, found, rfl⟩ := Option.map_eq_some_iff.mp h
  obtain rfl : p = place := by simpa using List.find?_some found
  exact List.mem_of_find?_eq_some found

/-- In a well-formed tree the entries are what stands at the places. -/
theorem WellFormed.mem_entries_iff (wf : tree.WellFormed) {e : FileEntry} :
    (place, e) ∈ tree.entries ↔ place ≠ [] ∧ tree.entry? place = some e := by
  refine ⟨fun mem => ?_, fun h => mem_entries_of_eq_some h.1 h.2⟩
  have ne := wf.place_ne_nil _ mem
  refine ⟨ne, ?_⟩
  simp only [List.isEmpty_iff, entry?, ne, if_false]
  cases found : tree.entries.find? fun p => p.1 == place with
  | none => exact absurd (List.find?_eq_none.mp found _ mem) (by simp)
  | some p =>
      have same : p.1 = place := by simpa using List.find?_some found
      have eq := List.inj_on_of_nodup_map wf.nodup (List.mem_of_find?_eq_some found) mem same
      rw [eq]
      rfl

/-- Above an entry there are directories. -/
theorem WellFormed.directory_above (wf : tree.WellFormed) {p below : Place} {e : FileEntry}
    (mem : (p ++ below, e) ∈ tree.entries) (ne : below ≠ []) :
    tree.entry? p = some .directory := by
  induction below using List.reverseRecOn generalizing e with
  | nil => exact absurd rfl ne
  | append_singleton below name ih =>
      have parent := wf.parent _ mem
      rw [← List.append_assoc, List.dropLast_concat] at parent
      by_cases direct : below = []
      · simpa [direct] using parent
      · exact ih (mem_entries_of_eq_some (by simp [direct]) parent) direct

/-- A walk under names leads to the entry that stands there. -/
theorem WellFormed.walk_names (wf : tree.WellFormed) {parts : List Text} {e : FileEntry}
    (mem : (place ++ parts, e) ∈ tree.entries) :
    tree.walk text place parts = .ok (place ++ parts) := by
  induction parts generalizing place with
  | nil => simp [walk]
  | cons part more ih =>
      have directory := wf.directory_above mem (by simp)
      obtain ⟨-, -, not_back, short, -⟩ := wf.names _ mem part (by simp)
      have deeper : ((place ++ [part]) ++ more, e) ∈ tree.entries := by simpa using mem
      rw [walk_cons_eq_ok, if_neg not_back]
      exact ⟨directory, short, by simpa using ih deeper⟩

/-- **Entries below a directory are reached through its path.** -/
theorem WellFormed.locate_below (wf : tree.WellFormed) {root : FilePath} {parts : List Text}
    {e : FileEntry} (found : tree.locate root = .ok place) (ne : parts ≠ [])
    (mem : (place ++ parts, e) ∈ tree.entries) :
    tree.locate (root.append parts) = .ok (place ++ parts) := by
  obtain ⟨chars, s, start, walked⟩ := locate_eq_ok.mp found
  refine locate_eq_ok.mpr ⟨fun c hc => ?_, _, start?_append start parts, ?_⟩
  · rcases FilePath.mem_toText_append ne hc with own | ⟨t, ht, hc⟩ | rfl
    · exact chars c own
    · obtain ⟨-, -, -, -, clean⟩ := wf.names _ mem t (by simp [ht])
      exact (clean c hc).1
    · decide
  · exact walk_append_eq_ok.mpr ⟨place, walk_text walked, wf.walk_names mem⟩

/-! ### Listed files -/

theorem mem_below {parts : List Text} {e : FileEntry} :
    (parts, e) ∈ tree.below place ↔ parts ≠ [] ∧ (place ++ parts, e) ∈ tree.entries := by
  simp only [below, List.mem_filterMap, Prod.exists]
  constructor
  · rintro ⟨p, e', mem, h⟩
    split at h
    · next part more found =>
      cases h
      rw [FilePath.partsAfter?_eq_some.mp found] at mem
      exact ⟨by simp, mem⟩
    · cases h
  · rintro ⟨ne, mem⟩
    obtain ⟨part, more, rfl⟩ := List.exists_cons_of_ne_nil ne
    refine ⟨_, e, mem, ?_⟩
    rw [FilePath.partsAfter?_eq_some.mpr rfl]

/-- A file below a directory: the place of the directory followed by further components, and the
bytes that stand there. -/
def HasFile (tree : FileTree) (root : FilePath) (parts : List Text) (bytes : List UInt8) : Prop :=
  ∃ place, tree.locate root = .ok place ∧ parts ≠ [] ∧
    (place ++ parts, .file bytes) ∈ tree.entries

/-- **The listed files** are the files that stand below the directory. -/
theorem WellFormed.mem_filesBelow (wf : tree.WellFormed) {root p : FilePath} :
    p ∈ tree.filesBelow root ↔
      ∃ parts bytes, tree.HasFile root parts bytes ∧ p = root.append parts := by
  unfold filesBelow HasFile
  cases found : tree.locate root with
  | error e => simp
  | ok place =>
      simp only [Except.ok.injEq, exists_eq_left']
      constructor
      · intro mem
        split at mem
        · cases mem
        · obtain ⟨⟨parts, e⟩, listed, h⟩ := List.mem_filterMap.mp mem
          cases e with
          | directory => cases h
          | file bytes =>
              cases h
              exact ⟨parts, bytes, mem_below.mp listed, rfl⟩
      · rintro ⟨parts, bytes, ⟨ne, mem⟩, rfl⟩
        have directory : tree.hasDirectory place = true := by
          simp [hasDirectory, wf.directory_above mem ne]
        rw [if_neg (by simp [directory])]
        exact List.mem_filterMap.mpr ⟨(parts, .file bytes), mem_below.mpr ⟨ne, mem⟩, rfl⟩

/-- No file is listed twice. -/
theorem WellFormed.nodup_filesBelow (wf : tree.WellFormed) (root : FilePath) :
    (tree.filesBelow root).Nodup := by
  unfold filesBelow
  split
  · exact List.nodup_nil
  · next place found =>
    split
    · exact List.nodup_nil
    · have distinct : tree.entries.Pairwise fun a b => a.1 ≠ b.1 :=
        List.pairwise_map.mp wf.nodup
      have below : (tree.below place).Pairwise fun a b => a.1 ≠ b.1 := by
        refine List.Pairwise.filterMap _ ?_ distinct
        rintro ⟨p, e⟩ ⟨p', e'⟩ ne x hx y hy same
        dsimp only at hx hy ne
        split at hx <;> cases hx
        next found =>
          split at hy <;> cases hy
          next found' =>
            rw [FilePath.partsAfter?_eq_some.mp found, FilePath.partsAfter?_eq_some.mp found'] at ne
            exact ne (by simpa using same)
      refine List.Pairwise.filterMap _ ?_ below
      rintro ⟨parts, e⟩ ⟨parts', e'⟩ ne x hx y hy same
      cases e <;> cases hx
      cases e' <;> cases hy
      exact ne (by simpa using congrArg FilePath.parts same)

/-- The text of a listed file is what its bytes say. -/
theorem WellFormed.readText_append (wf : tree.WellFormed) {root : FilePath} {parts : List Text}
    {bytes : List UInt8} (h : tree.HasFile root parts bytes) :
    tree.readText (root.append parts) =
      match Utf8.decode bytes with
      | .ok t => .ok t.universalNewlines
      | .error e => .error (.undecodable e) := by
  obtain ⟨place, found, ne, mem⟩ := h
  have stands := (wf.mem_entries_iff.mp mem).2
  have bytes_eq : tree.readBytes (root.append parts) = .ok bytes := by
    simp [readBytes, wf.locate_below found ne mem, stands, bind, Except.bind]
  unfold readText
  rw [bytes_eq]
  rfl

/-! ### Trees that keep directories -/

/-- A tree has all directories of another one. -/
structure Keeps (tree tree' : FileTree) : Prop where
  base : tree'.base = tree.base
  cwd : tree'.cwd = tree.cwd
  directory : ∀ q, tree.entry? q = some .directory → FileTree.entry? tree' q = some .directory

theorem Keeps.walk_eq_ok (h : Keeps tree tree') {p : Place} {parts : List Text}
    (walked : tree.walk text p parts = .ok q) : tree'.walk text p parts = .ok q := by
  induction parts generalizing p with
  | nil => exact walked
  | cons part more ih =>
      rw [walk_cons_eq_ok] at walked ⊢
      refine ⟨h.directory p walked.1, ?_⟩
      by_cases back : part = ".."
      · simp only [back, if_true] at walked ⊢
        exact ⟨walked.2.1, ih walked.2.2⟩
      · simp only [back, if_false] at walked ⊢
        exact ⟨walked.2.1, ih walked.2.2⟩

/-- **Paths lead where they led** as long as directories are kept. -/
theorem Keeps.locate_eq_ok (h : Keeps tree tree') {path : FilePath}
    (located : tree.locate path = .ok q) : tree'.locate path = .ok q := by
  have start : tree'.start? path = tree.start? path := by
    simp [start?, h.base, h.cwd]
  obtain ⟨chars, s, found, walked⟩ := FileTree.locate_eq_ok.mp located
  exact FileTree.locate_eq_ok.mpr ⟨chars, s, start.trans found, h.walk_eq_ok walked⟩

/-! ### Trees that differ in a file -/

/-- Two trees that differ at one place at most, where neither has a directory. -/
structure DiffersAt (place : Place) (tree tree' : FileTree) : Prop where
  base : tree'.base = tree.base
  cwd : tree'.cwd = tree.cwd
  elsewhere : ∀ q, q ≠ place → FileTree.entry? tree' q = tree.entry? q
  no_directory : tree.entry? place ≠ some .directory
  no_directory' : FileTree.entry? tree' place ≠ some .directory

namespace DiffersAt

theorem symm (h : DiffersAt place tree tree') : DiffersAt place tree' tree :=
  ⟨h.base.symm, h.cwd.symm, fun q ne => (h.elsewhere q ne).symm, h.no_directory', h.no_directory⟩

theorem directory_iff (h : DiffersAt place tree tree') (p : Place) :
    FileTree.entry? tree' p = some .directory ↔ tree.entry? p = some .directory := by
  by_cases here : p = place
  · subst here
    exact ⟨fun d => absurd d h.no_directory', fun d => absurd d h.no_directory⟩
  · rw [h.elsewhere p here]

theorem keeps (h : DiffersAt place tree tree') : Keeps tree tree' :=
  ⟨h.base, h.cwd, fun q => (h.directory_iff q).mpr⟩

/-- **Files do not change where paths lead.** -/
theorem locate_eq_ok_iff (h : DiffersAt place tree tree') {path : FilePath} :
    tree'.locate path = .ok q ↔ tree.locate path = .ok q :=
  ⟨h.symm.keeps.locate_eq_ok, h.keeps.locate_eq_ok⟩

end DiffersAt

/-! ### Writing a file -/

theorem find?_map_key {l : List (Place × FileEntry)} {e : FileEntry} :
    (l.map fun p => if p.1 == place then (place, e) else p).find? (fun p => p.1 == q) =
      if q = place then (l.find? fun p => p.1 == q).map fun _ => (place, e)
      else l.find? fun p => p.1 == q := by
  induction l with
  | nil => simp
  | cons p l ih =>
      by_cases here : p.1 = place
      · by_cases same : q = place
        · simp [here, same]
        · simpa [here, same, Ne.symm same] using ih
      · by_cases same : p.1 = q
        · have other : ¬ q = place := fun eq => here (same.trans eq)
          simp [same, other]
        · simpa [here, same] using ih

/-- What is put at a place stands there, and nothing else is changed. -/
theorem entry?_put (ne : place ≠ []) (e : FileEntry) :
    FileTree.entry? (tree.put place e) q = if q = place then some e else tree.entry? q := by
  by_cases root : q = []
  · subst root
    rw [if_neg (Ne.symm ne)]
    rfl
  simp only [List.isEmpty_iff, entry?, root, if_false, put]
  split
  · next listed =>
    rw [find?_map_key]
    split
    · next same =>
      subst same
      obtain ⟨p, found⟩ := Option.isSome_iff_exists.mp (List.find?_isSome.mpr
        (List.any_eq_true.mp listed))
      simp [found]
    · rfl
  · next unlisted =>
    have absent : (tree.entries.find? fun p => p.1 == place) = none :=
      List.find?_eq_none.mpr fun p mem => List.any_eq_false.mp (Bool.not_eq_true _ ▸ unlisted) p mem
    rw [List.find?_append]
    by_cases same : q = place
    · simp [same, absent]
    · simp [same, Ne.symm same]

/-- Writing a file where no directory stands changes the tree at that place only. -/
theorem put_differsAt (ne : place ≠ []) (no_directory : tree.entry? place ≠ some .directory)
    (bytes : List UInt8) : DiffersAt place tree (tree.put place (.file bytes)) where
  base := by unfold put; split <;> rfl
  cwd := by unfold put; split <;> rfl
  elsewhere q other := by rw [entry?_put ne, if_neg other]
  no_directory := no_directory
  no_directory' := by rw [entry?_put ne, if_pos rfl]; simp

theorem mem_entries_put {p : Place × FileEntry} {e : FileEntry}
    (mem : p ∈ (tree.put place e).entries) : p = (place, e) ∨ p ∈ tree.entries := by
  unfold put at mem
  split at mem
  · obtain ⟨old, listed, rfl⟩ := List.mem_map.mp mem
    split
    · exact Or.inl rfl
    · exact Or.inr listed
  · rcases List.mem_append.mp mem with listed | new
    · exact Or.inr listed
    · exact Or.inl (List.mem_singleton.mp new)

/-- **A file written into a directory under a name leaves the tree well-formed.** -/
theorem WellFormed.put_file (wf : tree.WellFormed) (ne : place ≠ [])
    (names : ∀ name ∈ place, IsName name)
    (parent : tree.entry? place.dropLast = some .directory)
    (no_directory : tree.entry? place ≠ some .directory) (bytes : List UInt8) :
    (tree.put place (.file bytes)).WellFormed := by
  have keeps := (put_differsAt ne no_directory bytes).directory_iff
  constructor
  · unfold put
    split
    · have keys : (tree.entries.map fun p =>
          if p.1 == place then (place, FileEntry.file bytes) else p).map (·.1) =
            tree.entries.map (·.1) := by
        rw [List.map_map]
        refine List.map_congr_left fun p _ => ?_
        by_cases here : p.1 = place <;> simp [here]
      dsimp only
      rw [keys]
      exact wf.nodup
    · next unlisted =>
      have fresh : place ∉ tree.entries.map (·.1) := by
        simpa [List.mem_map] using unlisted
      rw [List.map_append, List.nodup_append]
      refine ⟨wf.nodup, by simp, ?_⟩
      rintro a ha b hb rfl
      simp only [List.map_cons, List.map_nil, List.mem_singleton] at hb
      exact fresh (hb ▸ ha)
  · intro p mem
    rcases mem_entries_put mem with rfl | listed
    · exact ne
    · exact wf.place_ne_nil p listed
  · intro p mem
    rcases mem_entries_put mem with rfl | listed
    · exact names
    · exact wf.names p listed
  · intro p mem
    rw [keeps]
    rcases mem_entries_put mem with rfl | listed
    · exact parent
    · exact wf.parent p listed

end FileTree

end RouteDocs
