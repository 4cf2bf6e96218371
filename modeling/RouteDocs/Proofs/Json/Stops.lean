import RouteDocs.Proofs.Json.Reader
import RouteDocs.Proofs.Json.RoundTrip

/-!
# When a Reader Stops at Its Limits

A reader stops at a limit only if its text is large: it has many digits in a row or opens many
brackets. What is read from a text is nested no deeper than the brackets that the text opens.

## Main Definitions

* `Json.openings`: how many brackets a text opens
* `Json.Excess`: what a fault says of the text: a limit is reached only if the text exceeds it
* `Json.Leaves`: what a reading leaves of its text, or what its fault says

## Main Statements

* `Json.leaves_readAtom`, `Json.leaves_readQuoted`: readings without brackets
* `Json.leaves_reads`: readings of values, items and members in enough steps
* `Json.excess_of_read`, `Json.depth_le_openings`: **what stops a reader, and how deep a value is**

## Design Notes

The three functions of the reader count down a number of steps. A value takes two steps for each
code point and one more, so that the count never ends before the text does, and a reader that finds
brackets too deep has seen them. Each reading leaves a suffix of its text, so that an excess in
what is left is one in the whole text.
-/

namespace RouteDocs

namespace Json

variable {α β : Type} {dialect : Dialect} {depth fuel : Nat} {c d : CodePoint} {s t r : Text}
  {size : α → Nat} {size' : β → Nat} {cause : ReadError.Cause} {x : Reading α}

/-! ### Excess -/

/-- Opening brackets. -/
def isOpening (c : CodePoint) : Bool := c == '[' || c.val == 0x7B

/-- How many brackets a text opens. -/
def openings (t : Text) : Nat := t.countP isOpening

/-- **What a fault says of the text**, if some brackets are open already: with brackets that are
nested too deep the text opens more than may be open, and a number that is too long has as many
digits, but for its sign where that counts. Other faults say nothing. -/
def Excess (dialect : Dialect) (depth : Nat) (t : Text) : ReadError.Cause → Prop
  | .tooDeep => dialect.maxDepth < depth + openings t
  | .tooManyDigits count => dialect.rules.maxLength < count ∧
      ∃ digits, digits <:+: t ∧ (∀ c ∈ digits, c.isAsciiDigit = true) ∧
        count ≤ digits.length + dialect.rules.countsCharacters.toNat
  | _ => True

/-- **What a reading leaves**: less than there was, and as many brackets that are not opened yet as
the value leaves. A reading that fails says what the text exceeds. -/
def Leaves (dialect : Dialect) (depth : Nat) (t : Text) (size : α → Nat) : Reading α → Prop
  | .ok (a, r) => r <:+ t ∧ r.length < t.length ∧ size a + openings r ≤ openings t
  | .error (cause, _) => Excess dialect depth t cause

theorem openings_le (suffix : s <:+ t) : openings s ≤ openings t :=
  suffix.sublist.countP_le

theorem openings_cons_of_isOpening (h : isOpening c = true) :
    openings (c :: t) = openings t + 1 :=
  List.countP_cons_of_pos h

theorem Excess.of_suffix (suffix : s <:+ t) (excess : Excess dialect depth s cause) :
    Excess dialect depth t cause := by
  cases cause with
  | tooDeep => exact Nat.lt_of_lt_of_le excess (Nat.add_le_add_left (openings_le suffix) _)
  | tooManyDigits count =>
      obtain ⟨many, digits, inside, all, length⟩ := excess
      exact ⟨many, digits, inside.trans suffix.isInfix, all, length⟩
  | _ => trivial

/-- An excess behind an opening bracket is one of the text with the bracket. -/
theorem Excess.of_bracket (opening : isOpening c = true) (suffix : s <:+ t)
    (excess : Excess dialect (depth + 1) s cause) : Excess dialect depth (c :: t) cause := by
  have whole := excess.of_suffix suffix
  cases cause with
  | tooDeep =>
      change dialect.maxDepth < depth + openings (c :: t)
      rw [openings_cons_of_isOpening opening, ← Nat.add_assoc, Nat.add_right_comm]
      exact whole
  | tooManyDigits count =>
      have same : Excess dialect depth t (.tooManyDigits count) := whole
      exact same.of_suffix (List.suffix_cons c t)
  | _ => trivial

/-! ### Readings -/

namespace Leaves

/-- The reading of a suffix, for the whole text. -/
theorem of_suffix (suffix : s <:+ t) (h : Leaves dialect depth s size x) :
    Leaves dialect depth t size x := by
  cases x with
  | error fault => exact Excess.of_suffix suffix h
  | ok result =>
      obtain ⟨inner, shorter, opened⟩ := h
      exact ⟨inner.trans suffix, shorter.trans_le suffix.length_le,
        opened.trans (openings_le suffix)⟩

/-- What is made of a value is no larger than the value. -/
theorem map {f : α → β} (h : Leaves dialect depth t size x) (le : ∀ a, size' (f a) ≤ size a) :
    Leaves dialect depth t size' (x.map fun p => (f p.1, p.2)) := by
  cases x with
  | error fault => exact h
  | ok result =>
      obtain ⟨inner, shorter, opened⟩ := h
      exact ⟨inner, shorter, (Nat.add_le_add_right (le _) _).trans opened⟩

/-- What is made of a value behind an opening bracket is larger than the value by one at most. -/
theorem map_bracket {f : α → β} (opening : isOpening c = true) (suffix : s <:+ t)
    (h : Leaves dialect (depth + 1) s size x) (le : ∀ a, size' (f a) ≤ size a + 1) :
    Leaves dialect depth (c :: t) size' (x.map fun p => (f p.1, p.2)) := by
  cases x with
  | error fault => exact Excess.of_bracket opening suffix h
  | ok result =>
      obtain ⟨inner, shorter, opened⟩ := h
      refine ⟨(inner.trans suffix).trans (List.suffix_cons _ _), ?_, ?_⟩
      · exact (shorter.trans_le suffix.length_le).trans (Nat.lt_succ_self _)
      · rw [openings_cons_of_isOpening opening]
        have all := openings_le suffix
        have bound := le result.1
        change size' (f result.1) + openings result.2 ≤ _
        omega

end Leaves

theorem skipSpace_suffix (t : Text) : skipSpace t <:+ t :=
  List.dropWhile_suffix _

/-- What stands behind blanks and one code point. -/
theorem suffix_of_skipSpace (h : skipSpace r = c :: s) : s <:+ r ∧ s.length < r.length := by
  have suffix : c :: s <:+ r := h ▸ skipSpace_suffix r
  exact ⟨(List.suffix_cons c s).trans suffix, Nat.lt_of_succ_le suffix.length_le⟩

/-! ### Values without Brackets -/

/-- The units of a quoted text reach no limit. -/
theorem leaves_readUnits (dialect : Dialect) (depth : Nat) (opening t : Text) :
    Leaves dialect depth t (fun _ => 0) (readUnits opening t) := by
  have behind (before r : Text) (c : CodePoint)
      (h : Leaves dialect depth r (fun _ : Text => 0) (readUnits opening r)) :
      Leaves dialect depth (before ++ r) (fun _ : Text => 0)
        ((readUnits opening r).map fun p => (c :: p.1, p.2)) :=
    (h.map (f := List.cons c) fun _ => le_rfl).of_suffix (List.suffix_append before r)
  fun_induction readUnits opening t with
  | case2 c r mark =>
      refine ⟨List.suffix_cons c r, Nat.lt_succ_self _, ?_⟩
      exact (Nat.zero_add _).trans_le (openings_le (List.suffix_cons c r))
  | case4 _ _ _ e _ h1 h2 h3 h4 _ _ _ _ ih => exact behind [_, e, h1, h2, h3, h4] _ _ ih
  | case7 _ _ _ e _ _ _ _ ih => exact behind [_, e] _ _ ih
  | case10 c _ _ _ _ ih => exact behind [c] _ _ ih
  | _ => trivial

/-- A quoted text reaches no limit. -/
theorem leaves_readQuoted (dialect : Dialect) (depth : Nat) (c : CodePoint) (t r : Text) :
    Leaves dialect depth (c :: r) (fun _ => 0) (readQuoted dialect t r) := by
  have units := leaves_readUnits dialect depth t r
  unfold readQuoted
  split
  · next read =>
    rw [read] at units
    exact Excess.of_suffix (List.suffix_cons c r) units
  · next read =>
    rw [read] at units
    dsimp only
    split
    · exact Leaves.of_suffix (x := .ok _) (List.suffix_cons c r) units
    · trivial

theorem takeWhole_fst_append_snd (t : Text) : (takeWhole t).1 ++ (takeWhole t).2 = t := by
  unfold takeWhole
  split
  · split
    · rfl
    · exact List.takeWhile_append_dropWhile
  · rfl

theorem takeWhole_ne_nil (digit : c.isAsciiDigit = true) : (takeWhole (c :: r)).1 ≠ [] := by
  unfold takeWhole
  dsimp only
  split
  · exact List.cons_ne_nil _ _
  · rw [List.takeWhile_cons_of_pos digit]
    exact List.cons_ne_nil _ _

theorem takeFraction_suffix (t : Text) : (takeFraction t).2 <:+ t := by
  unfold takeFraction
  split
  · dsimp only
    split
    · exact (List.dropWhile_suffix _).trans (List.suffix_cons _ _)
    · exact List.suffix_rfl
  · exact List.suffix_rfl

theorem takeExponent_suffix (t : Text) : (takeExponent t).2 <:+ t := by
  unfold takeExponent
  split
  · next c r =>
    -- what stands behind the letter and a sign loses its digits, if it has some
    have cut {s : Text} (x : Option Int) (inner : s <:+ r) :
        (if (s.takeWhile CodePoint.isAsciiDigit).isEmpty then (none, c :: r)
          else (x, s.dropWhile CodePoint.isAsciiDigit)).2 <:+ c :: r := by
      split
      · exact List.suffix_rfl
      · exact ((List.dropWhile_suffix _).trans inner).trans (List.suffix_cons c r)
    dsimp only
    split
    · split
      · next d s =>
        split
        · exact cut _ (List.suffix_cons d s)
        · split
          · exact cut _ (List.suffix_cons d s)
          · exact cut _ List.suffix_rfl
      · exact List.suffix_rfl
    · exact List.suffix_rfl
  · exact List.suffix_rfl

/-- **A number reaches a limit only by its digits.** -/
theorem leaves_readNumber {negative : Bool} (digit : c.isAsciiDigit = true) :
    Leaves dialect depth (c :: r) Json.depth (readNumber dialect negative (c :: r)) := by
  have parts := takeWhole_fst_append_snd (c :: r)
  have some := List.length_pos_iff.mpr (takeWhole_ne_nil (r := r) digit)
  have after : (takeExponent (takeFraction (takeWhole (c :: r)).2).2).2 <:+
      (takeWhole (c :: r)).2 :=
    (takeExponent_suffix _).trans (takeFraction_suffix _)
  have shorter : (takeWhole (c :: r)).2.length < (c :: r).length := by
    rw [← congrArg List.length parts, List.length_append]
    omega
  have whole : (takeExponent (takeFraction (takeWhole (c :: r)).2).2).2 <:+ c :: r :=
    after.trans ⟨_, parts⟩
  have flat : 0 + openings (takeExponent (takeFraction (takeWhole (c :: r)).2).2).2 ≤
      openings (c :: r) :=
    (Nat.zero_add _).trans_le (openings_le whole)
  have counted (isInteger : Bool) :
      dialect.counted negative isInteger (takeWhole (c :: r)).1.length ≤
        (takeWhole (c :: r)).1.length + dialect.rules.countsCharacters.toNat := by
    have sign := Bool.toNat_le negative
    unfold Dialect.counted
    split_ifs with characters
    · rw [characters]
      exact Nat.add_le_add_left sign _
    · exact Nat.le_add_right _ _
    · exact Nat.zero_le _
  unfold readNumber
  dsimp only
  split
  · next many =>
    refine ⟨many, (takeWhole (c :: r)).1, ?_, isAsciiDigit_of_mem_takeWhole, counted _⟩
    exact List.IsPrefix.isInfix ⟨_, parts⟩
  · split
    · exact ⟨whole, after.length_le.trans_lt shorter, flat⟩
    · exact ⟨whole, after.length_le.trans_lt shorter, flat⟩

/-- **A word or number reaches a limit only by its digits.** -/
theorem leaves_readAtom : Leaves dialect depth t Json.depth (readAtom dialect t) := by
  -- a word leaves what stands behind it
  have word (w : Text) (v : Json) (seen : w.isPrefixOf t = true) (long : 0 < w.length)
      (flat : v.depth = 0) : Leaves dialect depth t Json.depth (.ok (v, t.drop w.length)) := by
    have le := (List.isPrefixOf_iff_prefix.mp seen).length_le
    refine ⟨List.drop_suffix _ _, ?_, ?_⟩
    · rw [List.length_drop]
      omega
    · rw [flat, Nat.zero_add]
      exact openings_le (List.drop_suffix _ _)
  unfold readAtom
  dsimp only
  split_ifs with null yes no notANumber infinity minusInfinity
  · exact word "null" _ null (by decide) rfl
  · exact word "true" _ yes (by decide) rfl
  · exact word "false" _ no (by decide) rfl
  · exact word "NaN" _ notANumber (by decide) rfl
  · exact word "Infinity" _ infinity (by decide) rfl
  · exact word "-Infinity" _ minusInfinity (by decide) rfl
  · split
    · split_ifs with minus digit digit
      · next c r =>
        cases r with
        | nil => cases digit
        | cons d r => exact (leaves_readNumber digit).of_suffix (List.suffix_cons c _)
      · trivial
      · exact leaves_readNumber digit
      · trivial
    · trivial

/-! ### Values with Brackets -/

/-- Brackets that cannot be opened any more are an excess. -/
theorem excess_of_bracket (opening : isOpening c = true) (deep : dialect.maxDepth ≤ depth) :
    Excess dialect depth (c :: r) .tooDeep := by
  change dialect.maxDepth < depth + openings (c :: r)
  rw [openings_cons_of_isOpening opening]
  omega

/-- Brackets with nothing between them. -/
theorem leaves_empty {v : Json} (opening : isOpening c = true) (behind : skipSpace r = d :: s)
    (flat : v.depth = 1) : Leaves dialect depth (c :: r) Json.depth (.ok (v, s)) := by
  obtain ⟨suffix, shorter⟩ := suffix_of_skipSpace behind
  refine ⟨suffix.trans (List.suffix_cons c r), shorter.trans (Nat.lt_succ_self _), ?_⟩
  rw [flat, openings_cons_of_isOpening opening, Nat.add_comm]
  exact Nat.add_le_add_right (openings_le suffix) 1

section

variable {vs : List Json} {ms : List (Text × Json)}

/-- A value is as deep as what stands between its brackets, and the brackets. -/
theorem leaves_readValue_succ
    (items : ∀ t, 2 * t.length + 2 ≤ fuel →
      Leaves dialect (depth + 1) t depthOfItems (readItems dialect fuel (depth + 1) t))
    (members : ∀ t, 2 * t.length + 2 ≤ fuel →
      Leaves dialect (depth + 1) t depthOfMembers (readMembers dialect fuel (depth + 1) t))
    (enough : 2 * t.length ≤ fuel) :
    Leaves dialect depth t Json.depth (readValue dialect (fuel + 1) depth t) := by
  unfold readValue
  split
  · trivial
  next c r =>
  have inside {d : CodePoint} {s : Text} (behind : skipSpace r = d :: s) :
      d :: s <:+ r ∧ 2 * (d :: s).length + 2 ≤ fuel := by
    have suffix : d :: s <:+ r := behind ▸ skipSpace_suffix r
    have le := suffix.length_le
    rw [List.length_cons] at enough
    exact ⟨suffix, by omega⟩
  split
  · exact (leaves_readQuoted dialect _ c _ r).map (f := Json.str) fun _ => le_rfl
  split
  · next bracket =>
    have opening : isOpening c = true := by simp [isOpening, eq_of_beq bracket]
    split
    · next deep => exact excess_of_bracket opening deep
    split
    · trivial
    next behind =>
    split
    · exact leaves_empty opening behind rfl
    · obtain ⟨suffix, enough⟩ := inside behind
      exact (items _ enough).map_bracket (f := Json.arr) opening suffix fun _ => le_rfl
  split
  · next bracket =>
    have opening : isOpening c = true := by simp [isOpening, eq_of_beq bracket]
    split
    · next deep => exact excess_of_bracket opening deep
    split
    · trivial
    next behind =>
    split
    · exact leaves_empty opening behind rfl
    · obtain ⟨suffix, enough⟩ := inside behind
      refine (members _ enough).map_bracket (f := fun ms => Json.obj (Assoc.ofList ms)) opening
        suffix fun ms => Nat.succ_le_succ ?_
      -- a key that stands twice keeps one of its values
      exact depthOfMembers_le fun p mem => depth_le_of_mem_members (Assoc.mem_ofList mem)
  · exact leaves_readAtom

/-- A value that is the last one before a closing bracket. -/
theorem leaves_last {a : α} {v : Json} (first : Leaves dialect depth t Json.depth (.ok (v, r)))
    (behind : skipSpace r = d :: s) (le : size a ≤ v.depth) :
    Leaves dialect depth t size (.ok (a, s)) := by
  obtain ⟨inner, shorter, opened⟩ := first
  obtain ⟨suffix, less⟩ := suffix_of_skipSpace behind
  refine ⟨suffix.trans inner, less.trans shorter, le_trans ?_ opened⟩
  exact Nat.add_le_add le (openings_le suffix)

/-- A value and others behind a comma. -/
theorem leaves_more {f : α → β} {v : Json}
    (first : Leaves dialect depth t Json.depth (.ok (v, r))) (behind : skipSpace r = d :: s)
    (more : Leaves dialect depth (skipSpace s) size x)
    (le : ∀ a, size' (f a) ≤ max v.depth (size a)) :
    Leaves dialect depth t size' (x.map fun p => (f p.1, p.2)) := by
  obtain ⟨inner, shorter, opened⟩ := first
  have suffix : skipSpace s <:+ r := (skipSpace_suffix s).trans (suffix_of_skipSpace behind).1
  cases x with
  | error fault => exact Excess.of_suffix (suffix.trans inner) more
  | ok result =>
      obtain ⟨deeper, less, inside⟩ := more
      refine ⟨(deeper.trans suffix).trans inner, ?_, ?_⟩
      · exact (less.trans_le suffix.length_le).trans shorter
      · have rest := openings_le (deeper.trans suffix)
        have others := openings_le (suffix.trans inner)
        have bound := le result.1
        change size' (f result.1) + openings result.2 ≤ _
        change v.depth + openings r ≤ openings t at opened
        omega

/-- Items are as deep as the first one or those behind it. -/
theorem leaves_readItems_succ
    (value : ∀ t, 2 * t.length + 1 ≤ fuel →
      Leaves dialect depth t Json.depth (readValue dialect fuel depth t))
    (items : ∀ t, 2 * t.length + 2 ≤ fuel →
      Leaves dialect depth t depthOfItems (readItems dialect fuel depth t))
    (enough : 2 * t.length + 1 ≤ fuel) :
    Leaves dialect depth t depthOfItems (readItems dialect (fuel + 1) depth t) := by
  have first := value t enough
  unfold readItems
  split
  · next read =>
    rw [read] at first
    exact first
  next v r read =>
  rw [read] at first
  split
  · trivial
  next d s behind =>
  split
  · exact leaves_last first behind (Nat.max_zero _).le
  split
  · have less := first.2.1
    have le := ((skipSpace_suffix s).trans (suffix_of_skipSpace behind).1).length_le
    exact leaves_more (f := List.cons v) first behind (items _ (by omega)) fun _ => le_rfl
  · trivial

/-- Members are as deep as the value of the first one or those behind it. -/
theorem leaves_readMembers_succ
    (value : ∀ t, 2 * t.length + 1 ≤ fuel →
      Leaves dialect depth t Json.depth (readValue dialect fuel depth t))
    (members : ∀ t, 2 * t.length + 2 ≤ fuel →
      Leaves dialect depth t depthOfMembers (readMembers dialect fuel depth t))
    (enough : 2 * t.length + 1 ≤ fuel) :
    Leaves dialect depth t depthOfMembers (readMembers dialect (fuel + 1) depth t) := by
  unfold readMembers
  split
  · trivial
  next c r =>
  split
  · trivial
  have quoted := leaves_readQuoted dialect depth c (c :: r) r
  split
  · next read =>
    rw [read] at quoted
    exact quoted
  next key r' read =>
  rw [read] at quoted
  split
  · trivial
  next d s colon =>
  split
  · trivial
  -- the value behind the colon is read from what is left
  have suffix : skipSpace s <:+ c :: r :=
    ((skipSpace_suffix s).trans (suffix_of_skipSpace colon).1).trans quoted.1
  have le := suffix.length_le
  have first := (value (skipSpace s) (by omega)).of_suffix suffix
  split
  · next read =>
    rw [read] at first
    exact first
  next v r'' read =>
  rw [read] at first
  split
  · trivial
  next d s behind =>
  split
  · exact leaves_last first behind (Nat.max_zero _).le
  split
  · have less := first.2.1
    have le := ((skipSpace_suffix s).trans (suffix_of_skipSpace behind).1).length_le
    exact leaves_more (f := List.cons (key, v)) first behind (members _ (by omega)) fun _ => le_rfl
  · trivial

end

/-- **What readings leave in enough steps**, for values, items and members. -/
theorem leaves_reads (dialect : Dialect) (fuel depth : Nat) :
    (∀ t, 2 * t.length + 1 ≤ fuel →
      Leaves dialect depth t Json.depth (readValue dialect fuel depth t)) ∧
    (∀ t, 2 * t.length + 2 ≤ fuel →
      Leaves dialect depth t depthOfItems (readItems dialect fuel depth t)) ∧
    (∀ t, 2 * t.length + 2 ≤ fuel →
      Leaves dialect depth t depthOfMembers (readMembers dialect fuel depth t)) := by
  induction fuel generalizing depth with
  | zero =>
      refine ⟨fun t none => ?_, fun t none => ?_, fun t none => ?_⟩ <;> omega
  | succ fuel ih =>
      obtain ⟨value, items, members⟩ := ih depth
      obtain ⟨-, items', members'⟩ := ih (depth + 1)
      refine ⟨fun t enough => ?_, fun t enough => ?_, fun t enough => ?_⟩
      · exact leaves_readValue_succ items' members' (Nat.le_of_succ_le_succ enough)
      · exact leaves_readItems_succ value items (Nat.le_of_succ_le_succ enough)
      · exact leaves_readMembers_succ value members (Nat.le_of_succ_le_succ enough)

/-- What the reading of a whole text leaves. -/
theorem leaves_readPart (dialect : Dialect) (t : Text) :
    Leaves dialect 0 t Json.depth (readPart dialect t) := by
  have suffix := skipSpace_suffix t
  have le := suffix.length_le
  unfold readPart
  split
  · trivial
  · exact ((leaves_reads dialect _ 0).1 _ (by omega)).of_suffix suffix

/-- **What stops a reader**: a limit is reached only by a text that exceeds it. -/
theorem excess_of_read {e : ReadError} (h : read dialect t = .error e) :
    Excess dialect 0 t e.cause := by
  have part := leaves_readPart dialect t
  unfold read at h
  split at h
  · next read =>
    rw [read] at part
    cases h
    exact part
  · split at h
    · cases h
    · cases h
      trivial

/-- **A value is nested no deeper than the brackets that its text opens.** -/
theorem depth_le_openings {v : Json} (h : read dialect t = .ok v) : v.depth ≤ openings t := by
  have part := leaves_readPart dialect t
  unfold read at h
  split at h
  · cases h
  · next read =>
    rw [read] at part
    split at h
    · cases h
      exact (Nat.le_add_right _ _).trans part.2.2
    · cases h

/-! ### Integers with Too Many Digits -/

section

variable {w rest key k opening : Text}

/-- An integer that is too long before its end stops the reader. -/
theorem readNumber_of_many_digits {negative : Bool} (hw : IsWhole w)
    (many : dialect.rules.maxLength < dialect.counted negative true w.length) (ends : Ends rest) :
    readNumber dialect negative (w ++ rest) =
      .error (.tooManyDigits (dialect.counted negative true w.length), w ++ rest) := by
  unfold readNumber
  rw [takeWhole_append hw ends.isAsciiDigit_eq_false]
  simp only [ends.takeFraction, ends.takeExponent]
  exact if_pos many

theorem readValue_of_many_digits (hw : IsWhole w)
    (many : dialect.rules.maxLength < dialect.counted false true w.length) (ends : Ends rest) :
    readValue dialect (fuel + 1) depth (w ++ rest) =
      .error (.tooManyDigits (dialect.counted false true w.length), w ++ rest) := by
  obtain ⟨c, r, rfl, digit⟩ := hw.exists_cons
  obtain ⟨-, mark, bracket, brace⟩ :=
    isStart_of_isAtomStart (c := c) (by rw [isAtomStart, digit, Bool.true_or, Bool.true_or])
  rw [List.cons_append, readValue]
  simp only [mark, bracket, brace, Bool.false_eq_true, if_false]
  rw [readAtom_digit digit]
  exact readNumber_of_many_digits hw many ends

/-- A member whose value stops the reader. -/
theorem readMembers_of_error {fault : Fault}
    (quoted : readQuoted dialect (doubleQuote :: opening) opening = .ok (key, k))
    {t' : Text} (colon : skipSpace k = (':' : CodePoint) :: t')
    (first : readValue dialect fuel depth (skipSpace t') = .error fault) :
    readMembers dialect (fuel + 1) depth (doubleQuote :: opening) = .error fault := by
  have mark : (doubleQuote.val != 0x22) = false := rfl
  rw [readMembers]
  simp only [mark, quoted, colon, bne_self_eq_false, Bool.false_eq_true, if_false, first]

/-- An object whose members stop the reader. -/
theorem readValue_of_error {fault : Fault} (shallow : depth < dialect.maxDepth)
    (members : readMembers dialect fuel (depth + 1) (doubleQuote :: r) = .error fault) :
    readValue dialect (fuel + 1) depth (('\x7b' : CodePoint) :: doubleQuote :: r) =
      .error fault := by
  have mark : (('\x7b' : CodePoint).val == 0x22) = false := rfl
  have bracket : (('\x7b' : CodePoint) == '[') = false := by decide
  have brace : (('\x7b' : CodePoint).val == 0x7B) = true := rfl
  have other : (doubleQuote.val == 0x7D) = false := rfl
  have begins : skipSpace (doubleQuote :: r) = doubleQuote :: r := rfl
  rw [readValue]
  simp only [mark, bracket, brace, Bool.false_eq_true, if_false, if_true, not_le.mpr shallow,
    begins, other, members]
  rfl

/-- An object of one member that has a number as its value. -/
def numbered (w : Text) : Text :=
  '\x7b' :: doubleQuote :: 'n' :: doubleQuote :: ':' :: ' ' :: (w ++ [('\x7d' : CodePoint)])

/-- **An object with an integer of too many digits stops the reader.** -/
theorem read_numbered (hw : IsWhole w) (many : maxDigits < w.length) :
    ∃ e, Json.read .fragment (numbered w) = .error e ∧ e.cause = .tooManyDigits w.length := by
  have ends : Ends [('\x7d' : CodePoint)] := ends_cons (Or.inr (Or.inr rfl)) []
  obtain ⟨c, r, begins, digit⟩ := hw.exists_cons
  have start := (isStart_of_isAtomStart (c := c) (by
    rw [isAtomStart, digit, Bool.true_or, Bool.true_or])).1
  generalize rest : w ++ [('\x7d' : CodePoint)] = behind
  have value (fuel : Nat) : readValue .fragment (fuel + 1) 1 behind =
      .error (.tooManyDigits w.length, behind) :=
    rest ▸ readValue_of_many_digits hw many ends
  have skipped : skipSpace ((' ' : CodePoint) :: behind) = behind := by
    rw [← rest, begins]
    exact skipSpace_append (s := " ") (List.forall_mem_singleton.mpr (Or.inl rfl))
      (isSpace_eq_false start) _
  have quoted (t : Text) : readQuoted .fragment t ('n' :: doubleQuote :: ':' :: ' ' :: behind) =
      .ok ("n", ':' :: ' ' :: behind) := by
    have back : ComesBack true .fragment ("n" : Text) := Or.inl rfl
    exact readQuoted_quote back t (':' :: ' ' :: behind)
  have members (fuel : Nat) : readMembers .fragment (fuel + 2) 1
      (doubleQuote :: 'n' :: doubleQuote :: ':' :: ' ' :: behind) =
        .error (.tooManyDigits w.length, behind) := by
    refine readMembers_of_error (quoted _) rfl ?_
    rw [skipped]
    exact value fuel
  have part : readPart .fragment (numbered w) = .error (.tooManyDigits w.length, behind) := by
    rw [numbered, rest]
    unfold readPart
    split
    · next order => cases (List.cons.inj order).1
    · exact readValue_of_error (by decide) (members (2 * (behind.length + 5) + 1))
  rw [Json.read, part]
  exact ⟨_, rfl, rfl⟩

end

end Json

end RouteDocs
