import RouteDocs.Proofs.Files.Directory
import RouteDocs.Proofs.Text.Run
import RouteDocs.Route.Ignore

/-!
# The Directories That Are Skipped

A scan that names no patterns leaves out the files below installed packages and build results.  Its
patterns are wildcards over whole paths, and they say the same as a condition on the names of the
directories that a path leads through.

## Main Definitions

* `FilePath.IsStraight`: paths of components
* `Route.skippedNames`: the names of the directories that are skipped

## Main Statements

* `Wildcard.covers_around`: a wildcard with any text around a part covers the texts that have it
* `FilePath.infix_between_absolute_iff`: what stands between two slashes of an absolute path
* `Route.isIgnored_default_iff`: **a file is left out exactly if it is below a skipped directory**

## Design Notes

A pattern asks for a slash before the name, so in the path as seen from the root of the scan it
misses the first component; the absolute path has a slash there.
-/

namespace RouteDocs

/-! ### Wildcards -/

namespace Wildcard

variable {test : Text → Bool} {more : List Token} {t w : Text}

/-- Code points that stand for themselves in a pattern. -/
def isLiteral (c : CodePoint) : Bool := c != '*' && c != '?' && c != '['

/-- The piece that a code point stands for that stands for itself. -/
def literalToken (c : CodePoint) : Token := .one (· == c)

theorem anyTail_eq_true_iff : anyTail test t = true ↔ ∃ s, s <:+ t ∧ test s = true := by
  induction t with
  | nil => simp [anyTail]
  | cons c r ih =>
      rw [anyTail, Bool.or_eq_true, ih]
      constructor
      · rintro (whole | ⟨s, ending, holds⟩)
        · exact ⟨c :: r, List.suffix_refl _, whole⟩
        · exact ⟨s, ending.trans (List.suffix_cons c r), holds⟩
      · rintro ⟨s, ending, holds⟩
        rcases List.suffix_cons_iff.mp ending with rfl | ending
        · exact Or.inl holds
        · exact Or.inr ⟨s, ending, holds⟩

/-- Literal code points are matched one after another. -/
theorem tokensMatch_literals_iff : tokensMatch (w.map literalToken ++ more) t = true ↔
    ∃ r, t = w ++ r ∧ tokensMatch more r = true := by
  induction w generalizing t with
  | nil => simp
  | cons c w ih =>
      rw [List.map_cons, List.cons_append, literalToken, tokensMatch.eq_def]
      cases t with
      | nil => simp
      | cons d r => simp [ih, and_assoc]

/-- Literal code points are pieces of their own. -/
theorem tokensAfter_append (plain : ∀ c ∈ w, isLiteral c = true) (p : Text) :
    tokensAfter 0 (w ++ p) = w.map literalToken ++ tokensAfter 0 p := by
  induction w with
  | nil => rfl
  | cons c w ih =>
      obtain ⟨first, others⟩ := List.forall_mem_cons.mp plain
      simp only [isLiteral, Bool.and_eq_true, bne_iff_ne] at first
      obtain ⟨⟨star, mark⟩, bracket⟩ := first
      rw [List.cons_append, tokensAfter, if_neg (mt eq_of_beq star), if_neg (mt eq_of_beq mark),
        if_neg (mt eq_of_beq bracket), ih others]
      rfl

/-- Stars at the end match whatever is left. -/
theorem tokensMatch_stars (t : Text) : tokensMatch (tokensAfter 0 "**") t = true := by
  have rest (s : Text) : tokensMatch [Token.anyText] s = true :=
    anyTail_eq_true_iff.mpr ⟨[], List.nil_suffix, rfl⟩
  exact anyTail_eq_true_iff.mpr ⟨t, List.suffix_refl t, rest t⟩

/-- **A wildcard with any text around a part** covers the texts that have the part. -/
theorem covers_around (plain : ∀ c ∈ w, isLiteral c = true) :
    covers ("**" ++ (w ++ "**")) t = true ↔ w <:+: t := by
  have pieces : tokens ("**" ++ (w ++ "**")) =
      .anyText :: .anyText :: (w.map literalToken ++ tokensAfter 0 "**") :=
    congrArg (fun ts => Token.anyText :: .anyText :: ts) (tokensAfter_append plain "**")
  rw [covers, pieces, tokensMatch, anyTail_eq_true_iff]
  simp only [tokensMatch, anyTail_eq_true_iff, tokensMatch_literals_iff]
  constructor
  · rintro ⟨s, ending, u, ending', r, rfl, -⟩
    exact (List.prefix_append w r).isInfix.trans (ending'.trans ending).isInfix
  · rintro ⟨before, after, rfl⟩
    refine ⟨w ++ after, ⟨before, (List.append_assoc ..).symm⟩, _, List.suffix_refl _, after, rfl, ?_⟩
    exact tokensMatch_stars after

end Wildcard

/-! ### Paths of Components -/

namespace FilePath

variable {p : FilePath} {name : Text}

/-- **Paths of components**, none of which stands for the directory itself or the one above. -/
structure IsStraight (p : FilePath) : Prop where
  /-- At most two slashes stand at the beginning. -/
  root : p.root = [] ∨ p.root = "/" ∨ p.root = "//"
  /-- All else are components. -/
  components : ∀ name ∈ p.parts, IsComponent name

theorem IsStraight.append (straight : p.IsStraight) {below : List Text}
    (names : ∀ name ∈ below, IsComponent name) : (p.append below).IsStraight where
  root := straight.root
  components := List.forall_mem_append.mpr ⟨straight.components, names⟩

/-- Nothing is taken back where no component leads upwards. -/
theorem resolveParts_eq {parts : List Text} (straight : ∀ name ∈ parts, IsComponent name)
    (done : List Text) : resolveParts done parts = done.reverse ++ parts := by
  induction parts generalizing done with
  | nil => exact (List.append_nil _).symm
  | cons part more ih =>
      obtain ⟨first, others⟩ := List.forall_mem_cons.mp straight
      rw [resolveParts, if_neg (mt eq_of_beq first.not_back), ih others, List.reverse_cons,
        List.append_assoc]
      rfl

theorem IsStraight.resolved_eq (straight : p.IsStraight) : p.resolved = p := by
  rw [resolved, resolveParts_eq straight.components]
  rfl

/-- The pieces of joined components are the components. -/
theorem splitOn_join_parts (straight : p.IsStraight) (ne : p.parts ≠ []) :
    (Text.join "/" p.parts).splitOn '/' = p.parts :=
  Text.splitOn_join ne fun part mem _ hc eq =>
    (straight.components part mem).undivided (eq ▸ hc)

/-- **The directories of an absolute path** are the names between two of its slashes. -/
theorem infix_between_absolute_iff (straight : p.IsStraight) (absolute : p.isAbsolute = true)
    (component : IsComponent name) :
    Text.between '/' name <:+: p.toText ↔ name ∈ p.parts.dropLast := by
  -- What is before the last slash at the beginning has empty pieces only.
  obtain ⟨lead, root, empty⟩ : ∃ lead : Text, p.root = lead ++ "/" ∧
      (lead.splitOn '/').tail.Subset [[]] := by
    rcases straight.root with none | one | two
    · rw [isAbsolute, none] at absolute
      cases absolute
    · exact ⟨[], one, List.nil_subset _⟩
    · exact ⟨"/", two, List.Subset.refl _⟩
  have text : p.toText = lead ++ ('/' : CodePoint) :: Text.join "/" p.parts := by
    have something : p.root.isEmpty = false := by simpa [isAbsolute] using absolute
    rw [toText, something, Bool.false_and, if_neg Bool.false_ne_true, root, List.append_assoc]
    rfl
  obtain ⟨first, before, pieces⟩ := List.exists_cons_of_ne_nil (Text.splitOn_ne_nil '/' lead)
  rw [pieces, List.tail_cons] at empty
  have named : name ∉ before := fun mem =>
    component.nonempty (List.mem_singleton.mp (empty mem))
  rw [Text.infix_between_iff component.undivided, text, Text.splitOn_append_sep, pieces,
    List.cons_append, List.tail_cons,
    List.dropLast_append_of_ne_nil (Text.splitOn_ne_nil '/' _), List.mem_append]
  by_cases none : p.parts = []
  · rw [none]
    simpa [Text.join, Text.splitOn, Text.splitBy] using named
  · rw [splitOn_join_parts straight none]
    exact or_iff_right named

/-- The directories of a relative path are its names between two slashes, and perhaps the first. -/
theorem mem_dropLast_of_infix_between (straight : p.IsStraight) (relative : p.root = [])
    (component : IsComponent name) (stands : Text.between '/' name <:+: p.toText) :
    name ∈ p.parts.dropLast := by
  have inner := (Text.infix_between_iff component.undivided).mp stands
  rw [toText, relative] at inner
  by_cases none : p.parts = []
  · rw [none] at inner
    cases inner
  · have something : p.parts.isEmpty = false := List.isEmpty_eq_false_iff.mpr none
    rw [something, Bool.and_false, if_neg Bool.false_ne_true, List.nil_append,
      splitOn_join_parts straight none, ← List.tail_dropLast] at inner
    exact List.mem_of_mem_tail inner

end FilePath

namespace FileTree

open FilePath

/-- **The working directory has an absolute path** of components. -/
structure IsAnchored (tree : FileTree) : Prop where
  /-- Its path is a path of components. -/
  straight : (tree.base.append tree.cwd).IsStraight
  /-- Its path begins at the root of the file system. -/
  absolute : tree.base.isAbsolute = true

variable {tree : FileTree} {root : FilePath} {below : List Text}

/-- **The absolute path of a path below a root** is made of the absolute path of the root and of what
is below it. -/
theorem IsAnchored.exists_absolute_append (anchored : tree.IsAnchored) (straight : root.IsStraight)
    (names : ∀ name ∈ below, IsComponent name) :
    ∃ directory : FilePath, directory.isAbsolute = true ∧ directory.IsStraight ∧
      tree.absolute (root.append below) = directory.append below := by
  have resolved (directory : FilePath) (own : directory.IsStraight)
      (eq : (root.append below).within (tree.base.append tree.cwd) = directory.append below) :
      tree.absolute (root.append below) = directory.append below := by
    change ((root.append below).within (tree.base.append tree.cwd)).resolved = _
    rw [eq, (own.append names).resolved_eq]
  by_cases absolute : root.isAbsolute = true
  · exact ⟨root, absolute, straight, resolved root straight (if_pos absolute)⟩
  · have own : ((tree.base.append tree.cwd).append root.parts).IsStraight :=
      anchored.straight.append straight.components
    have relative : (root.append below).within (tree.base.append tree.cwd) =
        ((tree.base.append tree.cwd).append root.parts).append below := by
      rw [append_append]
      exact if_neg absolute
    exact ⟨(tree.base.append tree.cwd).append root.parts, anchored.absolute, own,
      resolved _ own relative⟩

end FileTree

/-! ### Skipped Directories -/

namespace Route

open FilePath

/-- The names of the directories that are skipped. -/
def skippedNames : List Text := ["node_modules", "dist", ".next"]

/-- The pattern of the files below a directory with a name. -/
def belowPattern (name : Text) : Text := "**" ++ (Text.between '/' name ++ "**")

theorem defaultIgnore_eq : defaultIgnore = skippedNames.map belowPattern := by decide

/-- The names of the directories that are skipped are components without special characters. -/
theorem isComponent_of_mem_skippedNames {name : Text} (mem : name ∈ skippedNames) :
    IsComponent name ∧ ∀ c ∈ Text.between '/' name, Wildcard.isLiteral c = true := by
  have all : ∀ name ∈ skippedNames, IsComponent name ∧
      (Text.between '/' name).all Wildcard.isLiteral = true := by decide
  exact ⟨(all name mem).1, List.all_eq_true.mp (all name mem).2⟩

/-- A pattern covers the texts with the name between two slashes. -/
theorem covers_belowPattern_iff {name t : Text} (mem : name ∈ skippedNames) :
    Wildcard.covers (belowPattern name) t = true ↔ Text.between '/' name <:+: t :=
  Wildcard.covers_around (isComponent_of_mem_skippedNames mem).2

variable {tree : FileTree} {root : FilePath} {below : List Text}

/-- Seen from the root, a path below it is what was put behind the root. -/
theorem relativeTo?_append_self (root : FilePath) (below : List Text) :
    (root.append below).relativeTo? root = some ⟨[], below⟩ := by
  rw [relativeTo?, append_root, if_pos (beq_self_eq_true root.root),
    partsAfter?_eq_some.mpr (append_parts root below)]
  rfl

/-- **A file is left out exactly if it is below a skipped directory**: one of the components of its
absolute path, the last one apart, is the name of such a directory. -/
theorem isIgnored_default_iff (anchored : tree.IsAnchored) (straight : root.IsStraight)
    (names : ∀ name ∈ below, IsComponent name) :
    isIgnored (tree.absolute (root.append below)) (root.append below) root defaultIgnore = true ↔
      ∃ name ∈ (tree.absolute (root.append below)).parts.dropLast, name ∈ skippedNames := by
  obtain ⟨directory, absolute, own, path⟩ := anchored.exists_absolute_append straight names
  have seen : ((root.append below).relativeTo? root).map FilePath.toText =
      some (FilePath.toText ⟨[], below⟩) :=
    congrArg (Option.map FilePath.toText) (relativeTo?_append_self root below)
  rw [path, isIgnored, seen, Option.getD_some, defaultIgnore_eq, List.any_map, List.any_eq_true]
  refine exists_congr fun name => ?_
  rw [and_comm, Function.comp_apply, Bool.or_eq_true]
  refine and_congr_left fun mem => ?_
  have component := (isComponent_of_mem_skippedNames mem).1
  rw [covers_belowPattern_iff mem, covers_belowPattern_iff mem,
    infix_between_absolute_iff (own.append names) absolute component]
  refine or_iff_left_of_imp fun stands => ?_
  have inner : name ∈ below.dropLast :=
    mem_dropLast_of_infix_between (p := ⟨[], below⟩) ⟨Or.inl rfl, names⟩ rfl component stands
  have ne : below ≠ [] := by
    rintro rfl
    cases inner
  rw [append_parts, List.dropLast_append_of_ne_nil ne]
  exact List.mem_append_right _ inner

/-- A tree with the working directory `/srv/work`. -/
def workTree : FileTree := ⟨⟨"/", ["srv"]⟩, ["work"], []⟩

theorem isIgnored_default_iff_installed : workTree.IsAnchored ∧
    (FilePath.mk [] ["src", "api"]).IsStraight ∧
    (∀ name ∈ (["node_modules", "auth", "route.ts"] : List Text), IsComponent name) ∧
    (∀ name ∈ (["redist", ".next.d", "dist"] : List Text), IsComponent name) ∧
    isIgnored ⟨"/", ["srv", "work", "src", "api", "node_modules", "auth", "route.ts"]⟩
      ⟨[], ["src", "api", "node_modules", "auth", "route.ts"]⟩ ⟨[], ["src", "api"]⟩
      defaultIgnore = true ∧
    isIgnored ⟨"/", ["srv", "work", "src", "api", "redist", ".next.d", "dist"]⟩
      ⟨[], ["src", "api", "redist", ".next.d", "dist"]⟩ ⟨[], ["src", "api"]⟩
      defaultIgnore = false := by
  have anchored : workTree.IsAnchored := ⟨⟨Or.inr (Or.inl rfl), by decide⟩, rfl⟩
  have straight : (FilePath.mk [] ["src", "api"]).IsStraight := ⟨Or.inl rfl, by decide⟩
  have installed : ∀ name ∈ (["node_modules", "auth", "route.ts"] : List Text),
    IsComponent name := by decide
  have similar : ∀ name ∈ (["redist", ".next.d", "dist"] : List Text), IsComponent name := by decide
  refine ⟨anchored, straight, installed, similar, ?_, Bool.eq_false_iff.mpr fun ignored => ?_⟩
  · exact (isIgnored_default_iff anchored straight installed).mpr
      ⟨"node_modules", by decide, by decide⟩
  · obtain ⟨name, directory, skipped⟩ :=
      (isIgnored_default_iff anchored straight similar).mp ignored
    have apart : ∀ name ∈ (["srv", "work", "src", "api", "redist", ".next.d"] : List Text),
      name ∉ skippedNames := by decide
    exact apart name directory skipped

end Route

end RouteDocs
