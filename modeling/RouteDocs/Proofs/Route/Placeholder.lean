import RouteDocs.Proofs.Route.Url

/-!
# Placeholders of a Template

The placeholders of a template are its names in braces, taken from left to right.  They are told
here without the search for them.

## Main Definitions

* `Route.Opens`: a name in braces begins a text
* `Route.Placeholders`: the names in braces of a text, as a relation

## Main Statements

* `Route.placeholders_iff`: **the names that are found are the placeholders**
* `Route.Placeholders.mem_of_mem`: a placeholder is written in the template

## Design Notes

A brace that no name follows is passed over, and so is one inside a name: the name goes from the
first brace that can open one up to the next closing brace.
-/

namespace RouteDocs

namespace Route

/-- A name in braces begins a text: it is not empty, and ends with the first closing brace. -/
def Opens (name : Text) (t : Text) : Prop :=
  name ≠ [] ∧ ('\x7d' : CodePoint) ∉ name ∧ ("\x7b" : Text) ++ name ++ ("\x7d" : Text) <+: t

/-- **The names in braces of a text**, from left to right. -/
inductive Placeholders : Text → List Text → Prop where
  /-- There is none where nothing is left. -/
  | nil : Placeholders [] []
  /-- A code point at which no name in braces begins is passed over. -/
  | pass {c : CodePoint} {t : Text} {names : List Text} (other : ∀ name, ¬Opens name (c :: t))
      (more : Placeholders t names) : Placeholders (c :: t) names
  /-- A name in braces is taken, and the search goes on behind it. -/
  | take {name t : Text} {names : List Text} (ne : name ≠ []) (closed : ('\x7d' : CodePoint) ∉ name)
      (more : Placeholders t names) : Placeholders ("\x7b" ++ name ++ "\x7d" ++ t) (name :: names)

variable {t r name : Text} {c : CodePoint} {names : List Text}

/-- Where no name in braces begins, none is found. -/
theorem bracedNames_of_not_opens (other : ∀ name, ¬Opens name (c :: t)) :
    bracedNames 0 (c :: t) = bracedNames 0 t := by
  rw [bracedNames]
  generalize eq : t.takeWhile (fun d : CodePoint => d.val != 0x7D) = name
  refine if_neg fun found => ?_
  rw [Bool.and_eq_true, Bool.and_eq_true, beq_iff_eq, Bool.not_eq_true', List.isEmpty_eq_false_iff,
    decide_eq_true_eq] at found
  obtain ⟨⟨brace, ne⟩, shorter⟩ := found
  have inside : ∀ d ∈ name, (d.val != 0x7D) = true := by
    rw [← eq]
    intro d mem
    exact List.mem_takeWhile_imp (p := fun d : CodePoint => d.val != 0x7D) mem
  have closed : ('\x7d' : CodePoint) ∉ name := fun mem => absurd (inside _ mem) (by decide)
  -- The name ends before the text does, and what ends it is a closing brace.
  have whole : name ++ t.dropWhile (fun d : CodePoint => d.val != 0x7D) = t := by
    rw [← eq, List.takeWhile_append_dropWhile]
  cases rest : t.dropWhile (fun d : CodePoint => d.val != 0x7D) with
  | nil =>
      rw [rest, List.append_nil] at whole
      exact absurd shorter (by rw [whole]; exact Nat.lt_irrefl _)
  | cons d s =>
      have stop : (d.val != 0x7D) = false := by
        have head := List.head?_dropWhile_not (fun d : CodePoint => d.val != 0x7D) t
        rw [rest] at head
        simpa using head
      have first : c = ('\x7b' : CodePoint) := Fin.ext brace
      have last : d = ('\x7d' : CodePoint) := Fin.ext (bne_eq_false_iff_eq.mp stop)
      refine other name ⟨ne, closed, s, ?_⟩
      rw [← whole, rest, first, last, List.append_assoc, List.append_assoc]
      rfl

/-- A text has the placeholders that are found in it. -/
theorem placeholders_bracedNames (t : Text) : Placeholders t (bracedNames 0 t) := by
  -- A name is taken with everything up to its closing brace, so the induction is on the length.
  induction n : t.length using Nat.strong_induction_on generalizing t with
  | _ n ih =>
  subst n
  cases t with
  | nil => exact .nil
  | cons c t =>
      by_cases other : ∀ name, ¬Opens name (c :: t)
      · rw [bracedNames_of_not_opens other]
        exact .pass other (ih t.length (Nat.lt_succ_self _) t rfl)
      · simp only [not_forall, not_not] at other
        obtain ⟨name, ne, closed, r, eq⟩ := other
        rw [← eq, bracedNames_braced ne closed r]
        refine .take ne closed (ih r.length ?_ r rfl)
        rw [← eq, List.length_append, List.length_append]
        exact Nat.lt_add_of_pos_left (Nat.succ_pos _)

/-- **The names that are found are the placeholders**, and no other list of names is. -/
theorem placeholders_iff : Placeholders t names ↔ bracedNames 0 t = names := by
  constructor
  · intro placeholders
    induction placeholders with
    | nil => rfl
    | pass other _ ih => rw [bracedNames_of_not_opens other, ih]
    | take ne closed _ ih => rw [bracedNames_braced ne closed, ih]
  · rintro rfl
    exact placeholders_bracedNames t

/-- A placeholder is not empty, has no closing brace and is written in the text. -/
theorem Placeholders.mem_of_mem (placeholders : Placeholders t names) (mem : name ∈ names) :
    name ≠ [] ∧ ('\x7d' : CodePoint) ∉ name ∧ ∀ d ∈ name, d ∈ t := by
  induction placeholders with
  | nil => cases mem
  | pass _ _ ih =>
      obtain ⟨ne, closed, inside⟩ := ih mem
      exact ⟨ne, closed, fun d hd => List.mem_cons_of_mem _ (inside d hd)⟩
  | take ne closed _ ih =>
      rcases List.mem_cons.mp mem with rfl | mem
      · refine ⟨ne, closed, fun d hd => ?_⟩
        exact List.mem_append_left _ (List.mem_append_left _ (List.mem_append_right _ hd))
      · obtain ⟨ne, closed, inside⟩ := ih mem
        exact ⟨ne, closed, fun d hd => List.mem_append_right _ (inside d hd)⟩

/-- A text behind another one without braces has the same placeholders with it. -/
theorem placeholders_append_iff (unmarked : Unmarked t) :
    Placeholders (t ++ r) names ↔ Placeholders r names := by
  rw [placeholders_iff, placeholders_iff, bracedNames_append unmarked]

end Route

end RouteDocs
