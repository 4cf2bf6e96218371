import Mathlib.Data.Finset.Sort
import RouteDocs.Handler.Section

/-!
# Handler Sections Tile the File

A route file is cut where the sections of its handlers begin.  The beginnings are found verb by
verb, so they come in any order and several verbs may share one; sorted and without repetitions
they are the *cuts* of the file.

## Main Statements

* `Handler.sectionEnd_eq_next`: the section of a cut ends at the next cut
* `Handler.take_append_flatten_pieces`: a beginning of a text and the pieces between cuts after it
  make up the text
* `Handler.sections_tile`: the preamble and the sections, in order, are the file, and the source of
  a verb is the preamble with its own section

## Design Notes

`Handler.sectionEnd` takes a minimum over the later starts in whatever order they come; the pieces
follow the sorted list.  `sectionEnd_eq_next` is the only place where the two meet.
-/

namespace RouteDocs

namespace Handler

/-! ### Pieces between cuts -/

/-- The part of a text between two places. -/
def slice (t : Text) (first last : Nat) : Text :=
  (t.take last).drop first

/-- The pieces of a text from each cut to the next one, the last of which reaches the end. -/
def pieces (t : Text) : List Nat → List Text
  | [] => []
  | a :: more => slice t a (more.head?.getD t.length) :: pieces t more

/-- The piece with a number reaches from the cut with that number to the next one. -/
theorem getElem?_pieces (t : Text) (cuts : List Nat) (i : Nat) :
    (pieces t cuts)[i]? = cuts[i]?.map fun a => slice t a (cuts[i + 1]?.getD t.length) := by
  induction cuts generalizing i with
  | nil => simp [pieces]
  | cons a more ih =>
      cases i with
      | zero => simp [pieces, List.head?_eq_getElem?]
      | succ i => simpa [pieces] using ih i

/-- A text up to one place and from there to a later one is the text up to the later place. -/
theorem take_append_slice (t : Text) {a b : Nat} (le : a ≤ b) :
    t.take a ++ slice t a b = t.take b := by
  have prefixed : t.take a = (t.take b).take a := by
    rw [List.take_take, Nat.min_eq_left le]
  rw [slice, prefixed, List.take_append_drop]

/-- The text before the first cut and the pieces make up the text. -/
theorem take_append_flatten_pieces (t : Text) (a : Nat) (more : List Nat)
    (sorted : (a :: more).Pairwise (· < ·)) :
    t.take a ++ (pieces t (a :: more)).flatten = t := by
  induction more generalizing a with
  | nil => simp [pieces, slice, List.take_append_drop]
  | cons b more ih =>
      obtain ⟨below, sorted⟩ := List.pairwise_cons.mp sorted
      have lt : a < b := below b (by simp)
      calc t.take a ++ (pieces t (a :: b :: more)).flatten
          = (t.take a ++ slice t a b) ++ (pieces t (b :: more)).flatten := by
            simp [pieces]
        _ = t.take b ++ (pieces t (b :: more)).flatten := by
            rw [take_append_slice t (Nat.le_of_lt lt)]
        _ = t := ih b sorted

/-! ### Starts of verbs -/

/-- The places where sections begin, as they come verb by verb. -/
def startPlaces (content : Text) : List Nat :=
  (starts content).map (·.2)

theorem mem_startPlaces {content : Text} {s : Nat} :
    s ∈ startPlaces content ↔ ∃ v, (v, s) ∈ starts content := by
  simp [startPlaces]

/-- A verb has a start where its earliest signature is attached. -/
theorem mem_starts {content : Text} {v : Verb} {s : Nat} :
    (v, s) ∈ starts content ↔
      ∃ o, offset? content v.name = some o ∧ startAt content o = s := by
  simp only [starts, List.mem_filterMap, Option.map_eq_some_iff, Prod.mk.injEq]
  constructor
  · rintro ⟨w, -, o, found, rfl, rfl⟩
    exact ⟨o, found, rfl⟩
  · rintro ⟨o, found, rfl⟩
    exact ⟨v, v.mem_all, o, found, rfl, rfl⟩

/-- The section of an exported verb begins at the start of the verb. -/
theorem start?_eq_some {content : Text} {v : Verb} {s : Nat} (h : (v, s) ∈ starts content) :
    start? content v.name = some s := by
  unfold start?
  cases found : (starts content).find? fun p => p.1.name == v.name with
  | none =>
      have absent := List.find?_eq_none.mp found (v, s) h
      simp at absent
  | some p =>
      obtain ⟨w, s'⟩ := p
      have named : w.name = v.name := by simpa using List.find?_some found
      obtain rfl := Verb.name_injective named
      obtain ⟨o, ho, rfl⟩ := mem_starts.mp h
      obtain ⟨o', ho', rfl⟩ := mem_starts.mp (List.mem_of_find?_eq_some found)
      rw [ho] at ho'
      cases ho'
      rfl

/-- A name that belongs to no exported verb has no section. -/
theorem start?_eq_none {content method : Text}
    (h : ∀ v s, (v, s) ∈ starts content → v.name ≠ method) :
    start? content method = none := by
  have absent : ((starts content).find? fun p => p.1.name == method) = none := by
    rw [List.find?_eq_none]
    rintro ⟨v, s⟩ mem
    simpa using h v s mem
  simp [start?, absent]

/-- A file that exports a verb has a start. -/
theorem startPlaces_ne_nil {content : Text} (exported : verbs content ≠ []) :
    startPlaces content ≠ [] := by
  obtain ⟨v, mem⟩ := List.exists_mem_of_ne_nil _ exported
  obtain ⟨o, found⟩ := Option.isSome_iff_exists.mp (List.mem_filter.mp mem).2
  have start : (v, startAt content o) ∈ starts content := mem_starts.mpr ⟨o, found, rfl⟩
  exact List.ne_nil_of_mem (mem_startPlaces.mpr ⟨v, start⟩)

/-! ### Cuts -/

/-- The different places where sections begin, in order. -/
def cuts (content : Text) : List Nat :=
  (startPlaces content).toFinset.sort

theorem mem_cuts {content : Text} {s : Nat} : s ∈ cuts content ↔ s ∈ startPlaces content := by
  simp [cuts]

theorem pairwise_cuts (content : Text) : (cuts content).Pairwise (· < ·) :=
  (Finset.sortedLT_sort _).pairwise

/-- The least member of a list is the head of a sorted list with the same members above a bound. -/
theorem min?_filter_eq_head? (places : List Nat) {before after : List Nat} {s : Nat}
    (sorted : (before ++ s :: after).Pairwise (· < ·))
    (same : ∀ x, x ∈ places ↔ x ∈ before ++ s :: after) :
    (places.filter fun x => s < x).min? = after.head? := by
  obtain ⟨-, tail, below⟩ := List.pairwise_append.mp sorted
  have above : ∀ x, x ∈ (places.filter fun x => s < x) ↔ x ∈ after := by
    intro x
    simp only [List.mem_filter, same, List.mem_append, List.mem_cons, decide_eq_true_eq]
    constructor
    · rintro ⟨early | rfl | late, lt⟩
      · exact absurd lt (Nat.lt_asymm (below x early s (by simp)))
      · exact absurd lt (Nat.lt_irrefl _)
      · exact late
    · intro late
      exact ⟨Or.inr (Or.inr late), (List.pairwise_cons.mp tail).1 x late⟩
  cases after with
  | nil =>
      have empty : (places.filter fun x => s < x) = [] :=
        List.eq_nil_iff_forall_not_mem.mpr fun x mem => by simpa using (above x).mp mem
      simp [empty]
  | cons b after =>
      have least : ∀ x ∈ b :: after, b ≤ x := by
        rintro x (_ | ⟨_, mem⟩)
        · exact Nat.le_refl _
        · have ordered := (List.pairwise_cons.mp tail).2
          exact Nat.le_of_lt ((List.pairwise_cons.mp ordered).1 x mem)
      rw [List.head?_cons, List.min?_eq_some_iff]
      exact ⟨(above b).mpr (by simp), fun x mem => least x ((above x).mp mem)⟩

/-- **The section of a cut ends at the next cut**, and the last one at the end of the file. -/
theorem sectionEnd_eq_next {content : Text} {s i : Nat} (at_i : (cuts content)[i]? = some s) :
    sectionEnd content s = (cuts content)[i + 1]?.getD content.length := by
  obtain ⟨lt, rfl⟩ := List.getElem?_eq_some_iff.mp at_i
  have split : cuts content =
      (cuts content).take i ++ (cuts content)[i] :: (cuts content).drop (i + 1) := by
    rw [List.cons_getElem_drop_succ, List.take_append_drop]
  have next := min?_filter_eq_head? (startPlaces content) (split ▸ pairwise_cuts content)
    (fun x => by rw [← split, mem_cuts])
  rw [List.head?_drop] at next
  rw [sectionEnd, ← next]
  rfl

/-- The preamble ends at the first cut. -/
theorem preambleEnd_eq_head {content : Text} {first : Nat} {rest : List Nat}
    (h : cuts content = first :: rest) : preambleEnd content = first := by
  have least : (startPlaces content).min? = some first := by
    rw [List.min?_eq_some_iff]
    refine ⟨mem_cuts.mp (by simp [h]), fun x mem => ?_⟩
    have sorted := pairwise_cuts content
    rw [← mem_cuts, h] at mem
    rw [h] at sorted
    cases mem with
    | head => exact Nat.le_refl _
    | tail _ mem => exact Nat.le_of_lt ((List.pairwise_cons.mp sorted).1 x mem)
  change ((startPlaces content).min?).getD content.length = first
  rw [least]
  rfl

/-- A section ends no later than another one begins after it. -/
theorem sectionEnd_le {content : Text} {s s' : Nat} (mem : s' ∈ cuts content) (lt : s < s') :
    sectionEnd content s ≤ s' := by
  have later : s' ∈ (startPlaces content).filter fun x => s < x := by
    simp [mem_cuts.mp mem, lt]
  change ((startPlaces content).filter fun x => s < x).min?.getD content.length ≤ s'
  cases least : ((startPlaces content).filter fun x => s < x).min? with
  | none => simp [List.min?_eq_none_iff.mp least] at later
  | some m => exact (List.min?_eq_some_iff.mp least).2 s' later

/-- A place of the file before which no later section begins lies in the section. -/
theorem lt_sectionEnd {content : Text} {s p : Nat} (inside : p < content.length)
    (last : ∀ s' ∈ cuts content, s < s' → p < s') : p < sectionEnd content s := by
  change p < ((startPlaces content).filter fun x => s < x).min?.getD content.length
  cases least : ((startPlaces content).filter fun x => s < x).min? with
  | none => exact inside
  | some m =>
      have mem := (List.min?_eq_some_iff.mp least).1
      simp only [List.mem_filter, decide_eq_true_eq] at mem
      exact last m (mem_cuts.mpr mem.1) mem.2

/-- **Each place after the preamble has one owner**: a single cut in whose section it lies. -/
theorem existsUnique_owner {content : Text} {p : Nat} (after : preambleEnd content ≤ p)
    (inside : p < content.length) :
    ∃! s, s ∈ cuts content ∧ s ≤ p ∧ p < sectionEnd content s := by
  have nonempty : ((cuts content).toFinset.filter (· ≤ p)).Nonempty := by
    cases h : cuts content with
    | nil =>
        have none : startPlaces content = [] :=
          List.eq_nil_iff_forall_not_mem.mpr fun x mem => by simpa [h] using mem_cuts.mpr mem
        have whole : preambleEnd content = content.length := by
          change (startPlaces content).min?.getD content.length = content.length
          simp [none]
        omega
    | cons first rest => exact ⟨first, by simp [← preambleEnd_eq_head h, after]⟩
  obtain ⟨s, mem, greatest⟩ := Finset.exists_max_image _ id nonempty
  simp only [Finset.mem_filter, List.mem_toFinset, id] at mem greatest
  have owner : p < sectionEnd content s := by
    refine lt_sectionEnd inside fun s' mem' lt => ?_
    by_contra reached
    exact absurd (greatest s' ⟨mem', Nat.le_of_not_lt reached⟩) (Nat.not_le_of_lt lt)
  refine ⟨s, ⟨mem.1, mem.2, owner⟩, ?_⟩
  rintro s' ⟨mem', le', owner'⟩
  have none_between : ¬ s' < s := fun lt => by
    have := sectionEnd_le mem.1 lt
    omega
  exact Nat.le_antisymm (greatest s' ⟨mem', le'⟩) (Nat.le_of_not_lt none_between)

/-! ### Sources -/

/-- The source of an exported verb is the preamble and its own section. -/
theorem source_of_mem_starts {content : Text} {v : Verb} {s : Nat} (h : (v, s) ∈ starts content) :
    source content v.name =
      content.take (preambleEnd content) ++ slice content s (sectionEnd content s) := by
  simp [source, start?_eq_some h, slice]

/-- **The sections of a route file tile it.**  The text before the first cut, followed by the own
parts of the cuts in order, is the file; the source of a verb is that text with the part of its own
cut, whoever else begins there; each place after the preamble lies in the section of one cut only;
and a method that begins nowhere is given the whole file. -/
theorem sections_tile (content : Text) (exported : verbs content ≠ []) :
    ∃ first, (cuts content).head? = some first ∧
      content.take first ++ (pieces content (cuts content)).flatten = content ∧
      (∀ v s, (v, s) ∈ starts content → ∃ i part, (cuts content)[i]? = some s ∧
        (pieces content (cuts content))[i]? = some part ∧
        part = slice content s ((cuts content)[i + 1]?.getD content.length) ∧
        source content v.name = content.take first ++ part) ∧
      (∀ v w s, (v, s) ∈ starts content → (w, s) ∈ starts content →
        source content v.name = source content w.name) ∧
      (∀ p, first ≤ p → p < content.length →
        ∃! s, s ∈ cuts content ∧ s ≤ p ∧ p < sectionEnd content s) ∧
      (∀ method, (∀ v s, (v, s) ∈ starts content → v.name ≠ method) →
        source content method = content) := by
  obtain ⟨s₀, mem₀⟩ := List.exists_mem_of_ne_nil _ (startPlaces_ne_nil exported)
  obtain ⟨first, rest, split⟩ := List.exists_cons_of_ne_nil (List.ne_nil_of_mem (mem_cuts.mpr mem₀))
  have preamble := preambleEnd_eq_head split
  refine ⟨first, by simp [split], ?_, ?_, ?_, ?_, ?_⟩
  · rw [split]
    exact take_append_flatten_pieces content first rest (split ▸ pairwise_cuts content)
  · intro v s start
    obtain ⟨i, at_i⟩ := List.mem_iff_getElem?.mp (mem_cuts.mpr (mem_startPlaces.mpr ⟨v, start⟩))
    refine ⟨i, _, at_i, ?_, rfl, ?_⟩
    · rw [getElem?_pieces, at_i, Option.map_some]
    · rw [source_of_mem_starts start, preamble, sectionEnd_eq_next at_i]
  · intro v w s startV startW
    rw [source_of_mem_starts startV, source_of_mem_starts startW]
  · intro p after inside
    exact existsUnique_owner (by omega) inside
  · intro method unnamed
    simp [source, start?_eq_none unnamed]

/-- A file that exports `POST` before `GET`, which comes first among the verbs. -/
theorem sections_tile_post_before_get :
    let t : Text := "a;\nexport const POST = p\nexport const GET = g"
    verbs t ≠ [] ∧ ∃ first, (cuts t).head? = some first ∧
      t.take first ++ (pieces t (cuts t)).flatten = t ∧
      source t "GET" = t.take first ++ "export const GET = g" := by
  intro t
  have exported : verbs t ≠ [] := by decide +kernel
  have starts_eq : starts t = [(.get, 25), (.post, 3)] := by decide +kernel
  obtain ⟨first, head, whole, sources, -⟩ := sections_tile t exported
  obtain ⟨i, part, at_i, -, rfl, source_eq⟩ := sources .get 25 (by simp [starts_eq])
  refine ⟨exported, first, head, whole, source_eq.trans ?_⟩
  have last : (cuts t)[i + 1]?.getD t.length = 45 := by
    rw [← sectionEnd_eq_next at_i]
    decide +kernel
  rw [last]
  rfl

end Handler

end RouteDocs
