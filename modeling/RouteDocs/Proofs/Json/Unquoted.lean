import RouteDocs.Proofs.Json.Grammar

/-!
# Outside of Quotation Marks

Words for numbers that are not finite have a capital N or I, and the grammar of JSON has these
letters between quotation marks only.  So a printed value is JSON only if its numbers are finite.

## Main Definitions

* `Json.outside`: what of a text stands outside of quotation marks
* `Json.Closed`: the texts that leave no quotation open
* `Json.IsSober`: the texts that have neither letter outside of quotation marks

## Main Statements

* `Json.IsValue.isSober`: **the grammar derives sober texts**
* `Json.shows_printAt`: a value whose numbers are not all finite is printed with such a letter
* `Json.isText_print_iff`: **when a printed value is JSON**

## Design Notes

What follows a text is read as if it stood alone, provided that the text is closed.  For closed
texts `Json.outside` goes through concatenations, so the two inductions need no state.
-/

namespace RouteDocs

namespace Json

variable {t r : Text} {ts : List Text} {c : CodePoint}

/-! ### Reading Quotation Marks -/

/-- Where a code point stands. -/
inductive Spot where
  | outside | inside | escaped
  deriving DecidableEq

/-- What of a text stands outside of quotation marks, if its first code point stands at a spot. -/
def outsideFrom : Spot → Text → Text
  | _, [] => []
  | .outside, c :: r =>
    if c = doubleQuote then outsideFrom .inside r else c :: outsideFrom .outside r
  | .inside, c :: r =>
    if c = doubleQuote then outsideFrom .outside r
    else if c = backslash then outsideFrom .escaped r
    else outsideFrom .inside r
  | .escaped, _ :: r => outsideFrom .inside r

/-- What of a text stands outside of quotation marks. -/
def outside (t : Text) : Text := outsideFrom .outside t

/-- The texts that leave no quotation open. -/
def Closed (t : Text) : Prop := ∀ r, outside (t ++ r) = outside t ++ outside r

theorem outside_append_of_notMem (unmarked : doubleQuote ∉ t) (r : Text) :
    outside (t ++ r) = t ++ outside r := by
  induction t with
  | nil => rfl
  | cons c s ih =>
      obtain ⟨other, unmarked⟩ := not_or.mp (List.mem_cons.not.mp unmarked)
      rw [List.cons_append, outside, outsideFrom, if_neg (Ne.symm other)]
      exact congrArg (c :: ·) (ih unmarked)

theorem outside_of_notMem (unmarked : doubleQuote ∉ t) : outside t = t := by
  have whole := outside_append_of_notMem unmarked []
  rwa [List.append_nil, show outside [] = [] from rfl, List.append_nil] at whole

theorem closed_of_notMem (unmarked : doubleQuote ∉ t) : Closed t := by
  intro r
  rw [outside_append_of_notMem unmarked, outside_of_notMem unmarked]

/-- A quotation goes on over what is no mark and no backslash. -/
theorem outsideFrom_inside_append (plain : ∀ c ∈ t, c ≠ doubleQuote ∧ c ≠ backslash) (r : Text) :
    outsideFrom .inside (t ++ r) = outsideFrom .inside r := by
  induction t with
  | nil => rfl
  | cons c s ih =>
      obtain ⟨first, plain⟩ := List.forall_mem_cons.mp plain
      rw [List.cons_append, outsideFrom, if_neg first.1, if_neg first.2]
      exact ih plain

/-- A quotation ends where its text does. -/
theorem IsQuotable.outsideFrom_inside (h : IsQuotable t) (r : Text) :
    outsideFrom .inside (t ++ doubleQuote :: r) = outside r := by
  induction h with
  | nil => rw [List.nil_append, outsideFrom, if_pos rfl, outside]
  | plain _ mark slash _ ih =>
      rw [List.cons_append, outsideFrom, if_neg mark, if_neg slash]
      exact ih
  | short _ _ ih =>
      rw [List.cons_append, List.cons_append, outsideFrom, if_neg (by decide), if_pos rfl,
        outsideFrom]
      exact ih
  | @unit ds s _ digits _ ih =>
      have plain : ∀ c ∈ ds, c ≠ doubleQuote ∧ c ≠ backslash := by
        intro c hc
        have digit := digits c hc
        constructor <;> rintro rfl <;> cases digit
      rw [List.cons_append, List.cons_append, outsideFrom, if_neg (by decide), if_pos rfl,
        outsideFrom, List.append_assoc, outsideFrom_inside_append plain]
      exact ih

theorem outside_quotation_append (h : IsQuotable t) (r : Text) :
    outside (quotation t ++ r) = outside r := by
  rw [quotation, List.cons_append, List.append_assoc, outside, outsideFrom, if_pos rfl]
  exact h.outsideFrom_inside r

theorem outside_quotation (h : IsQuotable t) : outside (quotation t) = [] := by
  have whole := outside_quotation_append h []
  rwa [List.append_nil] at whole

theorem closed_quotation (h : IsQuotable t) : Closed (quotation t) := by
  intro r
  rw [outside_quotation_append h, outside_quotation h, List.nil_append]

namespace Closed

theorem append (ht : Closed t) (hr : Closed r) : Closed (t ++ r) := by
  intro s
  rw [List.append_assoc, ht, hr, ht, List.append_assoc]

/-- Joined closed texts are closed, and outside of quotation marks stand theirs, joined. -/
theorem join {sep : Text} (hsep : Closed sep) (hts : ∀ t ∈ ts, Closed t) :
    Closed (Text.join sep ts) ∧
      outside (Text.join sep ts) = Text.join (outside sep) (ts.map outside) := by
  induction ts with
  | nil => exact ⟨fun _ => rfl, rfl⟩
  | cons t more ih =>
      obtain ⟨first, rest⟩ := List.forall_mem_cons.mp hts
      cases more with
      | nil => exact ⟨first, rfl⟩
      | cons u more =>
          obtain ⟨closed, eq⟩ := ih rest
          rw [Text.join_cons_cons]
          refine ⟨first.append (hsep.append closed), ?_⟩
          rw [first, hsep, eq]
          exact (Text.join_cons_cons _ _ _ _).symm

end Closed

/-! ### Sober Texts -/

/-- The first letters of the words for numbers that are not finite. -/
def IsLoud (c : CodePoint) : Prop := c = 'N' ∨ c = 'I'

instance : DecidablePred IsLoud := fun c => inferInstanceAs (Decidable (c = 'N' ∨ c = 'I'))

/-- The texts that have these letters between quotation marks only. -/
structure IsSober (t : Text) : Prop where
  /-- No quotation is left open. -/
  closed : Closed t
  /-- No letter stands outside. -/
  sober : ∀ c ∈ outside t, ¬ IsLoud c

namespace IsSober

theorem of_notMem (plain : ∀ c ∈ t, c ≠ doubleQuote ∧ ¬ IsLoud c) : IsSober t := by
  have unmarked : doubleQuote ∉ t := fun mem => (plain _ mem).1 rfl
  refine ⟨closed_of_notMem unmarked, ?_⟩
  rw [outside_of_notMem unmarked]
  exact fun c hc => (plain c hc).2

theorem of_word (unmarked : doubleQuote ∉ t) (n : ('N' : CodePoint) ∉ t)
    (i : ('I' : CodePoint) ∉ t) : IsSober t := by
  refine of_notMem fun c hc => ⟨ne_of_mem_of_not_mem hc unmarked, ?_⟩
  rintro (rfl | rfl)
  · exact n hc
  · exact i hc

theorem append (ht : IsSober t) (hr : IsSober r) : IsSober (t ++ r) := by
  refine ⟨ht.closed.append hr.closed, ?_⟩
  rw [ht.closed]
  exact List.forall_mem_append.mpr ⟨ht.sober, hr.sober⟩

theorem cons (plain : c ≠ doubleQuote ∧ ¬ IsLoud c) (hr : IsSober r) : IsSober (c :: r) :=
  (of_notMem (List.forall_mem_singleton.mpr plain)).append hr

theorem singleton (plain : c ≠ doubleQuote ∧ ¬ IsLoud c) : IsSober [c] :=
  of_notMem (List.forall_mem_singleton.mpr plain)

theorem join (hts : ∀ t ∈ ts, IsSober t) : IsSober (Text.join "," ts) := by
  have comma : IsSober "," := singleton (by decide)
  obtain ⟨closed, eq⟩ := comma.closed.join fun t ht => (hts t ht).closed
  refine ⟨closed, fun c hc => ?_⟩
  rw [eq] at hc
  rcases Text.mem_of_mem_join hc with hc | ⟨_, mem, hc⟩
  · exact comma.sober c hc
  · obtain ⟨t, ht, rfl⟩ := List.mem_map.mp mem
    exact (hts t ht).sober c hc

end IsSober

theorem IsQuotable.isSober (h : IsQuotable t) : IsSober (quotation t) := by
  refine ⟨closed_quotation h, ?_⟩
  rw [outside_quotation h]
  exact fun c hc => absurd hc List.not_mem_nil

theorem IsWhite.isSober (h : IsWhite t) : IsSober t := by
  refine .of_notMem fun c hc => ?_
  have white := h c hc
  constructor
  · rintro rfl
    cases white
  · rintro (rfl | rfl) <;> cases white

/-- Digits are sober. -/
theorem isSober_of_digits (digits : ∀ c ∈ t, c.isAsciiDigit = true) : IsSober t := by
  refine .of_notMem fun c hc => ?_
  have digit := digits c hc
  constructor
  · rintro rfl
    cases digit
  · rintro (rfl | rfl) <;> cases digit

theorem IsNumeral.isSober (h : IsNumeral t) : IsSober t := by
  obtain ⟨sign, w, f, e, rfl, signed, whole, fraction, scale⟩ := h
  have none : IsSober [] := .of_notMem (by simp)
  have minus : IsSober "-" := .singleton (by decide)
  have plus : IsSober "+" := .singleton (by decide)
  refine .append ?_ (.append (isSober_of_digits whole.digits) (.append ?_ ?_))
  · rcases signed with rfl | rfl
    · exact none
    · exact minus
  · rcases fraction with rfl | ⟨ds, rfl, -, digits⟩
    · exact none
    · exact .cons (by decide) (isSober_of_digits digits)
  · rcases scale with rfl | ⟨letter, sign, ds, rfl, known, signed, -, digits⟩
    · exact none
    · have plain : letter ≠ doubleQuote ∧ ¬ IsLoud letter := by
        rcases known with rfl | rfl <;> decide
      refine .cons plain (.append ?_ (isSober_of_digits digits))
      rcases signed with rfl | rfl | rfl
      · exact none
      · exact plus
      · exact minus

mutual

/-- **The grammar derives sober texts.** -/
theorem IsValue.isSober : ∀ {t : Text}, IsValue t → IsSober t
  | _, .word known => by
    simp only [List.mem_cons, List.not_mem_nil, or_false] at known
    rcases known with rfl | rfl | rfl <;> exact .of_word (by decide) (by decide) (by decide)
  | _, .number numeral => numeral.isSober
  | _, .str quotable => quotable.isSober
  | _, .empty brackets white => by
    simp only [List.mem_cons, Prod.mk.injEq, List.not_mem_nil, or_false] at brackets
    rcases brackets with ⟨rfl, rfl⟩ | ⟨rfl, rfl⟩ <;>
      exact .cons (by decide) (white.isSober.append (.singleton (by decide)))
  | _, .arr _ items =>
    .cons (by decide) ((IsSober.join fun t ht => (items t ht).isSober).append
      (.singleton (by decide)))
  | _, .obj _ members =>
    .cons (by decide) ((IsSober.join fun t ht => (members t ht).isSober).append
      (.singleton (by decide)))

theorem IsItem.isSober : ∀ {t : Text}, IsItem t → IsSober t
  | _, .mk left value right => left.isSober.append (value.isSober.append right.isSober)

theorem IsMember.isSober : ∀ {t : Text}, IsMember t → IsSober t
  | _, .mk left quotable right value =>
    left.isSober.append (quotable.isSober.append (right.isSober.append
      (.cons (by decide) value.isSober)))

end

/-! ### Printed Values -/

variable {layout : Layout} {x : Binary64} {v : Json}

/-- Texts of a value that leave no quotation open, and that have a loud letter outside of quotation
marks unless the numbers of the value are finite. -/
structure Shows (w : Text) (v : Json) : Prop where
  /-- No quotation is left open. -/
  closed : Closed w
  /-- What is not finite shows. -/
  loud : v.FloatsIn Binary64.IsFinite ∨ ∃ c ∈ outside w, IsLoud c

/-- What is printed as the grammar says is finite. -/
theorem Shows.of_isValue (value : IsValue t) (finite : v.FloatsIn Binary64.IsFinite) : Shows t v :=
  ⟨value.isSober.closed, Or.inl finite⟩

/-- A word without quotation marks that has a loud letter. -/
theorem Shows.of_loud (unmarked : doubleQuote ∉ t) (loud : ∃ c ∈ t, IsLoud c) : Shows t v :=
  ⟨closed_of_notMem unmarked, Or.inr (by rwa [outside_of_notMem unmarked])⟩

/-- What stands before a text does not hide it. -/
theorem Shows.append (before : Closed r) (h : Shows t v) : Shows (r ++ t) v := by
  refine ⟨before.append h.closed, h.loud.imp_right ?_⟩
  rintro ⟨c, hc, loud⟩
  rw [before]
  exact ⟨c, List.mem_append_right _ hc, loud⟩

/-- A number shows where the layout has words for those that are not finite. -/
theorem shows_number (words : layout.onlyFinite = false) (canonical : x.IsCanonical) :
    Shows (layout.number x) (.float x) := by
  cases x with
  | finite negative m e =>
      exact .of_isValue (isValue_number canonical (Or.inr trivial)) (.float trivial)
  | infinite negative =>
      rw [Layout.number, words]
      cases negative
      · exact Shows.of_loud (t := "Infinity") (by decide) ⟨'I', by decide, Or.inr rfl⟩
      · exact Shows.of_loud (t := "-Infinity") (by decide) ⟨'I', by decide, Or.inr rfl⟩
  | nan =>
      rw [Layout.number, words]
      exact Shows.of_loud (t := "NaN") (by decide) ⟨'N', by decide, Or.inl rfl⟩

theorem closed_singleton (other : c ≠ doubleQuote) : Closed [c] :=
  closed_of_notMem (by simpa using other.symm)

theorem IsBlank.closed {s : Text} (h : IsBlank s) : Closed s := h.isWhite.isSober.closed

/-- **Brackets hide nothing**: what is between them is closed and shows if each part is and does. -/
theorem shows_bracket (h : layout.Separates) (opening closing : CodePoint) (level : Nat) {α : Type}
    {as : List α} {item : α → Text} {value : α → Json} (left : opening ≠ doubleQuote)
    (right : closing ≠ doubleQuote) (parts : ∀ a ∈ as, Shows (item a) (value a)) :
    Shows (layout.bracket (level + 1) opening closing (as.map item)) (.arr (as.map value)) := by
  by_cases nonempty : as = []
  · subst nonempty
    exact ⟨(closed_singleton left).append (closed_singleton right), Or.inl (.arr (by simp))⟩
  · obtain ⟨s, separator, hs⟩ := h.item
    have line := (isBlank_newLine layout (level + 1)).closed
    have between : Closed (layout.itemSeparator ++ layout.newLine (level + 1)) := by
      rw [separator]
      exact .append (.append (closed_singleton (c := ',') (by decide)) hs.closed) line
    have closed : ∀ t ∈ as.map item, Closed t :=
      List.forall_mem_map.mpr fun a ha => (parts a ha).closed
    obtain ⟨joined, shown⟩ := between.join closed
    have opened := (closed_singleton left).append line
    rw [bracket_eq item nonempty, ← List.singleton_append, ← List.append_assoc]
    refine ⟨opened.append (joined.append ((isBlank_newLine layout level).closed.append
      (closed_singleton right))), ?_⟩
    by_cases finite : ∀ a ∈ as, (value a).FloatsIn Binary64.IsFinite
    · exact Or.inl (.arr (List.forall_mem_map.mpr finite))
    · push Not at finite
      obtain ⟨a, ha, infinite⟩ := finite
      obtain ⟨c, hc, loud⟩ := (parts a ha).loud.resolve_left infinite
      refine Or.inr ⟨c, ?_, loud⟩
      rw [opened, joined, shown]
      refine List.mem_append_right _ (List.mem_append_left _ ?_)
      exact Text.mem_join_of_mem (List.mem_map_of_mem (List.mem_map_of_mem ha)) hc

/-- **A value is printed closed, and shows if its numbers are not all finite**, where the layout has
words for those that are not. -/
theorem shows_printAt (h : layout.Separates) (words : layout.onlyFinite = false)
    (canonical : v.FloatsIn Binary64.IsCanonical) (level : Nat) :
    Shows (printAt layout level v) v := by
  induction canonical generalizing level with
  | null => exact .of_isValue isValue_null .null
  | bool b => exact .of_isValue (isValue_bool b) (.bool b)
  | int i => exact .of_isValue (.number (isNumeral_ofInt i)) (.int i)
  | str t => exact .of_isValue (.str (isQuotable_flatMap_escape _ t)) (.str t)
  | float canonical => exact shows_number words canonical
  | arr _ ih =>
      rw [printAt, printItems_eq]
      have items := shows_bracket h '[' ']' level (by decide) (by decide) fun v hv =>
        ih v hv (level + 1)
      rwa [List.map_id'] at items
  | @obj ms _ ih =>
      obtain ⟨s, colon, white⟩ := h.key
      have members : ∀ p ∈ ms, Shows
          (quote layout.asciiOnly p.1 ++ layout.keySeparator ++ printAt layout (level + 1) p.2)
          p.2 := by
        intro p hp
        have key : Closed (quote layout.asciiOnly p.1 ++ layout.keySeparator) := by
          rw [colon]
          exact (closed_quotation (isQuotable_flatMap_escape _ p.1)).append
            ((closed_singleton (c := ':') (by decide)).append white.closed)
        exact (ih p hp (level + 1)).append key
      rw [printAt, printMembers_eq]
      have object := shows_bracket h '\x7b' '\x7d' level (by decide) (by decide) members
      refine ⟨object.closed, object.loud.imp_left fun finite => .obj ?_⟩
      exact List.forall_mem_map.mp (FloatsIn.arr_iff.mp finite)

/-- **When a printed value is JSON**: if its numbers are finite, or null is written for those that
are not. -/
theorem isText_print_iff (h : layout.Separates) (canonical : v.FloatsIn Binary64.IsCanonical) :
    IsText (print layout v) ↔ layout.onlyFinite = true ∨ v.FloatsIn Binary64.IsFinite := by
  constructor
  · intro text
    by_cases words : layout.onlyFinite = true
    · exact Or.inl words
    · have shows := shows_printAt h (by simpa using words) canonical 0
      refine Or.inr (shows.loud.resolve_right ?_)
      rintro ⟨c, hc, loud⟩
      exact (IsItem.isSober text).sober c hc loud
  · intro finite
    have floats : v.FloatsIn fun x => x.IsCanonical ∧ (layout.onlyFinite = true ∨ x.IsFinite) := by
      rcases finite with words | finite
      · exact canonical.mono fun x hx => ⟨hx, Or.inl words⟩
      · exact (canonical.and finite).mono fun x hx => ⟨hx.1, Or.inr hx.2⟩
    have item := IsItem.mk isWhite_nil (isValue_printAt h floats 0) isWhite_nil
    rwa [List.nil_append, List.append_nil] at item

end Json

end RouteDocs
