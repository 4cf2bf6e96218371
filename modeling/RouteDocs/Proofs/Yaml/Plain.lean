import RouteDocs.Proofs.Yaml.Cursor

/-!
# Plain Scalars Are Read Back

A text that means nothing else is read from its plain form, with lines folded or not.

## Main Definitions

* `Yaml.Plain.IsPlain`: the texts that mean nothing else without quotation marks
* `Yaml.Plain.Stops`: what ends a plain scalar
* `Yaml.Plain.Recovers`: a spelling that is read as a text before what follows it
* `Yaml.Plain.isBare`: letters, digits and hyphens

## Main Statements

* `Yaml.Plain.recovers_plainFrom`: **a printed plain scalar is read as its text**
* `Yaml.Plain.read_plain`: the same of the whole scalar, up to what ends it

## Design Notes

The printer holds spaces back until it knows whether they are folded, and the reader holds them back
until it knows whether the scalar goes on. The induction is on the text, with the number of spaces
held back general on both sides.
-/

namespace RouteDocs

namespace Yaml

namespace Plain

variable {inFlow : Bool} {indent n turns : Nat} {c after : Cursor} {newLine : Bool}
  {x : CodePoint} {t u r : Text}

/-! ### Words -/

/-- Whether a code point that another one follows belongs to a word. -/
def stays (inFlow : Bool) (x : CodePoint) (follower : Option CodePoint) : Bool :=
  !isGap x && !(x == ':' && endsKey inFlow follower) && !(inFlow && (x == '?' || isFlowMark x))

theorem word_cons (h : stays inFlow x u.head? = true) : word inFlow (x :: u) = x :: word inFlow u := by
  simp only [stays, Bool.and_eq_true, Bool.not_eq_true'] at h
  rw [word, h.1.1, h.1.2, h.2]
  rfl

theorem word_nil (h : isGap x = true) : word inFlow (x :: u) = [] := by
  rw [word, h]
  rfl

/-- A code point of a word is read before what follows it. -/
theorem words_cons (h : c.rest = x :: u) (inWord : stays inFlow x u.head? = true) :
    words inFlow indent (turns + 1) c =
      (x :: (words inFlow indent (turns + 1) c.next).1,
        (words inFlow indent (turns + 1) c.next).2) := by
  have next : c.next.rest = u := by rw [Cursor.rest_next, h]; rfl
  rw [words, words, h, next, word_cons inWord]
  dsimp only [List.length_cons]
  rw [Cursor.skip_succ]
  split
  · rfl
  · rfl

/-! ### Gaps -/

theorem breaks_spaces (h : c.rest = spaces n ++ r)
    (stop : ∀ x ∈ r.head?, x ≠ (' ' : CodePoint) ∧ isLineEnd x = false) (enough : n < turns) :
    breaks turns c = (some [], c.skip n) := by
  induction n generalizing c turns with
  | zero =>
      obtain ⟨turns, rfl⟩ := Nat.exists_eq_succ_of_ne_zero (Nat.ne_zero_of_lt enough)
      have h : c.rest = r := h
      have space : c.sees (· == ' ') = false := by
        cases r with
        | nil => exact Cursor.sees_of_nil h
        | cons x r => rw [Cursor.sees_of_rest h]; exact beq_false_of_ne (stop x rfl).1
      have ends : c.sees isLineEnd = false := by
        cases r with
        | nil => exact Cursor.sees_of_nil h
        | cons x r => rw [Cursor.sees_of_rest h]; exact (stop x rfl).2
      rw [breaks, space, ends]
      rfl
  | succ n ih =>
      obtain ⟨turns, rfl⟩ := Nat.exists_eq_succ_of_ne_zero (Nat.ne_zero_of_lt enough)
      rw [spaces_succ, List.cons_append] at h
      have next : c.next.rest = spaces n ++ r := by rw [Cursor.rest_next, h]; rfl
      rw [breaks, Cursor.sees_of_rest h, if_pos (by rfl), ih next (Nat.lt_of_succ_lt_succ enough)]
      rfl

/-- Spaces within a line. -/
theorem gap_spaces (h : c.rest = spaces n ++ r)
    (stop : ∀ x ∈ r.head?, x ≠ (' ' : CodePoint) ∧ isLineEnd x = false) :
    gap c = (spaces n, c.skip n, false) := by
  have all : ∀ x ∈ spaces n, (x == ' ') = true := fun x hx => by
    rw [eq_space_of_mem_spaces hx]
    rfl
  have stop' : ∀ x ∈ r.head?, (x == ' ') = false := fun x hx => beq_false_of_ne (stop x hx).1
  have inLine : (c.skip n).sees isLineEnd = false := by
    rw [Cursor.sees, Cursor.rest_skip, h, List.drop_left' (length_spaces n)]
    cases r with
    | nil => rfl
    | cons x r => exact (stop x rfl).2
  rw [gap, Cursor.run_append h all stop', Cursor.skipRun_append h all stop', length_spaces]
  dsimp only
  rw [inLine]
  rfl

/-- A line end and an indentation, which stand for a space. -/
theorem gap_newLine (h : c.rest = Yaml.newLine n ++ r) (mark : isDocumentMark (spaces n ++ r) = false)
    (stop : ∀ x ∈ r.head?, x ≠ (' ' : CodePoint) ∧ isLineEnd x = false) :
    gap c = ((" " : Text), c.skip (n + 1), true) := by
  have h : c.rest = ('\n' : CodePoint) :: (spaces n ++ r) := h
  have next : c.next.rest = spaces n ++ r := by rw [Cursor.rest_next, h]; rfl
  have stay : ∀ x ∈ c.rest.head?, (x == ' ') = false := fun x hx => by
    rw [h] at hx
    obtain rfl := Option.mem_some_iff.mp hx
    rfl
  rw [gap, Cursor.skipRun_nil stay, Cursor.sees_of_rest h, Cursor.lineBreak_lineFeed h]
  dsimp only
  rw [if_pos (by rfl), next, mark, breaks_spaces next stop
    (by rw [List.length_append, length_spaces]; omega)]
  rfl

/-- A gap within a plain scalar stands for some text, and the next word follows. -/
theorem words_gap {between : Text} (h : c.rest = x :: u) (isGap_x : isGap x = true)
    (read : gap c = (between, after, newLine)) (some : between ≠ []) {y : CodePoint} {v : Text}
    (next : after.rest = y :: v) (inWord : stays inFlow y v.head? = true)
    (comment : y ≠ ('#' : CodePoint)) (deep : inFlow = true ∨ indent ≤ after.column) :
    words inFlow indent (turns + 1) c =
      (between ++ (words inFlow indent turns after).1, (words inFlow indent turns after).2) := by
  have first : word inFlow c.rest = [] := by rw [h, word_nil isGap_x]
  have here : c.skip ([] : Text).length = c := rfl
  have goes : (between.isEmpty || after.sees (· == '#') || (!inFlow && after.column < indent)
      || (word inFlow after.rest).isEmpty) = false := by
    rw [Cursor.sees_of_rest next, next, word_cons inWord, List.isEmpty_eq_false_iff.mpr some,
      beq_false_of_ne comment]
    rcases deep with flow | deep
    · simp [flow]
    · simp [Nat.not_lt.mpr deep]
  rw [words, first, here, read]
  dsimp only
  rw [goes]
  rfl

/-! ### Ends -/

/-- A plain scalar ends at a position, and what precedes the next token is passed over. -/
def Stops (inFlow : Bool) (indent : Nat) (c after : Cursor) (newLine : Bool) : Prop :=
  ∀ turns, words inFlow indent (turns + 1) c = ([], after, newLine)

/-- What is no gap is neither a space nor a line end, whatever follows it. -/
theorem visible_of_noGap (noGap : isGap x = false) :
    ∀ y ∈ (x :: u).head?, y ≠ (' ' : CodePoint) ∧ isLineEnd y = false := by
  obtain ⟨white, ends⟩ := isGap_eq_false.mp noGap
  rintro y ⟨⟩
  refine ⟨?_, ends⟩
  rintro rfl
  cases white

/-- At a mark of a collection. -/
theorem stops_here (h : c.rest = x :: u) (noGap : isGap x = false)
    (outside : stays inFlow x u.head? = false) : Stops inFlow indent c c false := by
  intro turns
  have first : word inFlow c.rest = [] := by
    rw [h, word, if_pos]
    simp only [stays, Bool.and_eq_false_iff, Bool.not_eq_false'] at outside
    simp [or_assoc] at outside ⊢
    simpa using outside
  have read : gap c = ([], c, false) :=
    gap_spaces (n := 0) h (visible_of_noGap noGap)
  have here : c.skip ([] : Text).length = c := rfl
  rw [words, first, here, read]
  rfl

/-- At a line end before what is no word or is not indented enough. -/
theorem stops_newLine (h : c.rest = Yaml.newLine n ++ r)
    (mark : isDocumentMark (spaces n ++ r) = false)
    (stop : ∀ x ∈ r.head?, x ≠ (' ' : CodePoint) ∧ isLineEnd x = false)
    (ends : word inFlow r = [] ∨ inFlow = false ∧ n < indent) :
    Stops inFlow indent c (c.skip (n + 1)) true := by
  intro turns
  have first : word inFlow c.rest = [] := by
    rw [h]
    exact word_nil rfl
  have here : c.skip ([] : Text).length = c := rfl
  have next : (c.skip (n + 1)).rest = r := by
    rw [← length_newLine, Cursor.rest_skip_append h]
  rw [words, first, here, gap_newLine h mark stop]
  dsimp only
  rw [if_pos]
  rw [next, Cursor.skip_newLine h]
  rcases ends with none | ⟨rfl, less⟩
  · simp [none]
  · simp [less]

/-! ### Printed Plain Scalars -/

/-- What a text must be like to stand for itself without quotation marks. -/
structure IsPlain (t : Text) : Prop where
  /-- There is something of it. -/
  nonempty : t ≠ []
  /-- All of it is printed without escapes. -/
  printable : ∀ x ∈ t, isPrintable x = true
  /-- It is on one line. -/
  inLine : ∀ x ∈ t, isBreak x = false
  /-- It does not begin with a space. -/
  head : t.head? ≠ some (' ' : CodePoint)
  /-- It does not end with a space. -/
  last : t.getLast? ≠ some (' ' : CodePoint)
  /-- Nothing in it means something else. -/
  indicators : hasIndicator t = false

theorem isSeparator_of_isGap (h : isSeparator x = false) : isGap x = false := by
  simp only [isSeparator, isBreak, Bool.or_eq_false_iff] at h
  simp [isGap, isLineEnd, h]

/-- What is printed within a line moves the position on by one column. -/
theorem isInline_of_isPrintable (printable : isPrintable x = true) (inLine : isBreak x = false) :
    isInline x = true := by
  simp only [isPrintable, Bool.or_eq_true, Bool.and_eq_true, decide_eq_true_eq, beq_iff_eq,
    bne_iff_ne] at printable
  simp only [isBreak, Bool.or_eq_false_iff, beq_eq_false_iff_ne] at inLine
  simp only [isInline, isLineEnd, Bool.and_eq_true, Bool.not_eq_true', Bool.or_eq_false_iff,
    beq_eq_false_iff_ne, bne_iff_ne]
  refine ⟨⟨⟨⟨⟨inLine.1.1.1, ?_⟩, inLine.1.1.2⟩, inLine.1.2⟩, inLine.2⟩, by omega⟩
  rintro rfl
  exact absurd printable (by decide)

theorem isGap_of_isPrintable (printable : isPrintable x = true) (inLine : isBreak x = false)
    (space : x ≠ (' ' : CodePoint)) : isGap x = false := by
  refine isGap_eq_false.mpr ⟨?_,
    isLineEnd_eq_false_of_isInline (isInline_of_isPrintable printable inLine)⟩
  rw [isWhite, beq_false_of_ne space, Bool.false_or, beq_eq_false_iff_ne]
  rintro rfl
  exact absurd printable (by decide)

theorem isSeparator_of_isPrintable (printable : isPrintable x = true) (inLine : isBreak x = false)
    (space : x ≠ (' ' : CodePoint)) : isSeparator x = false := by
  have visible : x.val ≠ 0 ∧ x ≠ ('\t' : CodePoint) ∧ x ≠ ('\r' : CodePoint) := by
    refine ⟨fun same => ?_, ?_, ?_⟩
    · rw [isPrintable, same] at printable
      cases printable
    all_goals
      rintro rfl
      exact absurd printable (by decide)
  simp [isSeparator, visible, space, inLine]

/-- A colon within a word is not at its end. -/
theorem stays_of_inner {afterSeparator fold : Bool} {indent column : Nat}
    (noGap : isGap x = false) (inner : hasInnerIndicator afterSeparator (x :: t) = false) :
    stays false x (plainFrom fold indent column 0 t ++ r).head? = true := by
  simp only [hasInnerIndicator, Bool.or_eq_false_iff, Bool.and_eq_false_iff] at inner
  simp only [stays, noGap, Bool.not_false, Bool.true_and, Bool.false_and, Bool.and_true,
    Bool.not_eq_true', Bool.and_eq_false_iff]
  rcases inner.1.1 with other | goes
  · exact .inl other
  · right
    cases t with
    | nil => cases goes
    | cons y t =>
        have separator : isSeparator y = false := goes
        have space : (y == ' ') = false := by
          rw [beq_eq_false_iff_ne]
          rintro rfl
          cases separator
        rw [plainFrom, space]
        simp [endsKey, endOr, spaces, isSeparator_of_isGap separator]

/-- **A spelling is read as a text**, wherever it stands before what follows and ends there. -/
def Recovers (indent : Nat) (r spelling t : Text) : Prop :=
  ∀ ⦃c after : Cursor⦄ ⦃newLine : Bool⦄ ⦃turns : Nat⦄, indent ≤ c.column + 1 →
    c.rest = spelling ++ r → Stops false indent (c.skip spelling.length) after newLine →
    spelling.length < turns → words false indent turns c = (t, after, newLine)

theorem recovers_nil : Recovers indent r [] [] := by
  intro c after newLine turns _ _ stops enough
  obtain ⟨turns, rfl⟩ := Nat.exists_eq_succ_of_ne_zero (Nat.ne_zero_of_lt enough)
  exact stops turns

/-- A code point of a word stands for itself. -/
theorem recovers_cons (inline : isInline x = true) (inWord : stays false x (u ++ r).head? = true)
    (rest : Recovers indent r u t) : Recovers indent r (x :: u) (x :: t) := by
  intro c after newLine turns start h stops enough
  obtain ⟨turns, rfl⟩ := Nat.exists_eq_succ_of_ne_zero (Nat.ne_zero_of_lt enough)
  have next := Cursor.next_inline h inline
  have start' : indent ≤ c.next.column + 1 := by
    rw [next]
    exact Nat.le_succ_of_le start
  rw [words_cons h inWord, rest start' (by rw [next]; rfl) stops (Nat.lt_of_succ_lt enough)]

/-- What stands before a word and is read as a gap stands for what is read of it. -/
theorem recovers_gap {g : CodePoint} {spelling between : Text} (isGap_g : isGap g = true)
    (some : between ≠ []) (comment : x ≠ ('#' : CodePoint))
    (inWord : stays false x (u ++ r).head? = true) (word : Recovers indent r (x :: u) (x :: t))
    (read : ∀ c : Cursor, indent ≤ c.column + 1 → c.rest = (g :: spelling) ++ (x :: (u ++ r)) →
      ∃ newLine, gap c = (between, c.skip (g :: spelling).length, newLine) ∧
        indent ≤ (c.skip (g :: spelling).length).column) :
    Recovers indent r (g :: spelling ++ x :: u) (between ++ x :: t) := by
  intro c after newLine turns start h stops enough
  obtain ⟨turns, rfl⟩ := Nat.exists_eq_succ_of_ne_zero (Nat.ne_zero_of_lt enough)
  rw [List.append_assoc] at h
  obtain ⟨_, read, indented⟩ := read c start h
  have next : (c.skip (g :: spelling).length).rest = x :: (u ++ r) := Cursor.rest_skip_append h
  rw [List.length_append, Cursor.skip_add] at stops
  rw [List.length_append, List.length_cons] at enough
  rw [words_gap h isGap_g read some next inWord comment (.inr indented),
    word (Nat.le_succ_of_le indented) next stops (by omega)]

/-- Before a word, a folded line stands for a space. -/
theorem recovers_newLine (pos : 0 < n) (indented : indent ≤ n) (noGap : isGap x = false)
    (comment : x ≠ ('#' : CodePoint)) (inWord : stays false x (u ++ r).head? = true)
    (word : Recovers indent r (x :: u) (x :: t)) :
    Recovers indent r (Yaml.newLine n ++ x :: u) (spaces 1 ++ x :: t) := by
  refine recovers_gap rfl (List.cons_ne_nil _ _) comment inWord word fun c _ h => ⟨true, ?_, ?_⟩
  · have mark : isDocumentMark (spaces n ++ (x :: (u ++ r))) = false := by
      obtain ⟨k, rfl⟩ := Nat.exists_eq_succ_of_ne_zero pos.ne'
      rw [spaces_succ]
      exact isDocumentMark_eq_false (by decide)
    rw [gap_newLine h mark (visible_of_noGap noGap), List.length_cons, length_spaces]
    rfl
  · rw [List.length_cons, length_spaces, Cursor.skip_newLine h]
    exact indented

/-- Before a word, spaces stand for themselves. -/
theorem recovers_spaces (noGap : isGap x = false) (comment : x ≠ ('#' : CodePoint))
    (inWord : stays false x (u ++ r).head? = true) (word : Recovers indent r (x :: u) (x :: t)) :
    Recovers indent r (spaces (n + 1) ++ x :: u) (spaces (n + 1) ++ x :: t) := by
  have some : spaces (n + 1) ≠ [] := List.cons_ne_nil _ _
  have isGap_space : isGap ' ' = true := rfl
  rw [spaces_succ] at some ⊢
  refine recovers_gap isGap_space some comment inWord word fun c start h => ⟨false, ?_, ?_⟩
  · rw [List.length_cons, length_spaces]
    exact gap_spaces (n := n + 1) h (visible_of_noGap noGap)
  · rw [List.length_cons, length_spaces, Cursor.skip_spaces h]
    exact start.trans (Nat.add_le_add_left (Nat.le_add_left 1 n) _)

/-- **A printed plain scalar is read as its text.** -/
theorem recovers_plainFrom {fold : Bool} {deep column : Nat}
    (printable : ∀ x ∈ t, isPrintable x = true) (inLine : ∀ x ∈ t, isBreak x = false)
    (inner : hasInnerIndicator (decide (0 < n)) t = false)
    (last : t.getLast? ≠ some (' ' : CodePoint)) (pending : t = [] → n = 0)
    (indented : indent ≤ deep) (pos : 0 < deep) :
    Recovers indent r (plainFrom fold deep column n t) (spaces n ++ t) := by
  induction t generalizing n column with
  | nil =>
      obtain rfl := pending rfl
      exact recovers_nil
  | cons x t ih =>
      obtain ⟨printable_x, printable_t⟩ := List.forall_mem_cons.mp printable
      obtain ⟨inLine_x, inLine_t⟩ := List.forall_mem_cons.mp inLine
      have inner_t := (Bool.or_eq_false_iff.mp inner).2
      have last_t : t.getLast? ≠ some ' ' := fun same => last (by
        rw [List.getLast?_cons, same]
        rfl)
      rw [plainFrom]
      by_cases space : x = (' ' : CodePoint)
      · subst space
        have some : t ≠ [] := by rintro rfl; exact last rfl
        have read : Recovers indent r (plainFrom fold deep column (n + 1) t) (spaces (n + 1) ++ t) :=
          ih printable_t inLine_t inner_t last_t fun none => absurd none some
        rw [if_pos (beq_self_eq_true _)]
        simpa [spaces, List.replicate_succ'] using read
      · have noGap := isGap_of_isPrintable printable_x inLine_x space
        have separator : isSeparator x = decide (0 < 0) :=
          isSeparator_of_isPrintable printable_x inLine_x space
        rw [separator] at inner_t
        have inWord (column : Nat) :
            stays false x (plainFrom fold deep column 0 t ++ r).head? = true :=
          stays_of_inner noGap inner
        have word (column : Nat) :
            Recovers indent r (x :: plainFrom fold deep column 0 t) (x :: t) :=
          recovers_cons (isInline_of_isPrintable printable_x inLine_x) (inWord column)
            (ih printable_t inLine_t inner_t last_t fun _ => rfl)
        have comment (pos : 0 < n) : x ≠ ('#' : CodePoint) := by
          rintro rfl
          simp [hasInnerIndicator, pos] at inner
        rw [if_neg (by simpa using space)]
        split
        · next folded =>
          simp only [Bool.and_eq_true, beq_iff_eq] at folded
          obtain rfl : n = 1 := folded.1.2
          exact recovers_newLine pos indented noGap (comment Nat.one_pos) (inWord _) (word _)
        · cases n with
          | zero => exact word _
          | succ n => exact recovers_spaces noGap (comment n.succ_pos) (inWord _) (word _)

theorem IsPlain.inner (h : IsPlain t) : hasInnerIndicator (decide (0 < 0)) t = false := by
  have indicators := h.indicators
  cases t with
  | nil => exact absurd rfl h.nonempty
  | cons x r =>
      simp only [hasIndicator, Bool.or_eq_false_iff] at indicators
      obtain ⟨⟨-, alone⟩, inner⟩ := indicators
      simp only [hasInnerIndicator, inner, Bool.or_false, Bool.or_eq_false_iff]
      refine ⟨?_, by simp⟩
      rw [Bool.and_eq_false_iff] at alone ⊢
      refine alone.imp_left fun none => ?_
      simp only [Bool.or_eq_false_iff] at none
      exact none.1.2

/-- **A text that is written plainly is read back.** -/
theorem read_plain {fold : Bool} {deep column : Nat} (plain : IsPlain t)
    (h : c.rest = Yaml.plain fold deep column t ++ r) (indented : indent ≤ deep) (pos : 0 < deep)
    (start : indent ≤ c.column + 1)
    (stops : Stops false indent (c.skip (Yaml.plain fold deep column t).length) after newLine) :
    read false indent c = (t, after, newLine) := by
  refine recovers_plainFrom plain.printable plain.inLine plain.inner plain.last (fun _ => rfl)
    indented pos start h stops ?_
  rw [h, List.length_append]
  exact Nat.lt_succ_of_le (Nat.le_add_right _ _)

/-- The code points of words that mean nothing else anywhere. -/
def isBare (x : CodePoint) : Bool := x.isAsciiLetter || x.isAsciiDigit || x == '-'

theorem ne_of_isBare {y : CodePoint} (h : isBare x = true) (no : isBare y = false) : x ≠ y := by
  rintro rfl
  rw [h] at no
  cases no

/-- A bare code point is below the code points with a meaning of their own, or between them. -/
theorem isBare_cases (h : isBare x = true) :
    x = ('-' : CodePoint) ∨ 0x30 ≤ x.val ∧ x.val ≤ 0x39 ∨ 0x41 ≤ x.val ∧ x.val ≤ 0x5A ∨
      0x61 ≤ x.val ∧ x.val ≤ 0x7A := by
  simp only [isBare, CodePoint.isAsciiLetter, CodePoint.isAsciiDigit, Bool.or_eq_true,
    Bool.and_eq_true, decide_eq_true_eq, beq_iff_eq] at h
  rcases h with ((h | h) | h) | h
  · exact .inr (.inr (.inl h))
  · exact .inr (.inr (.inr h))
  · exact .inr (.inl h)
  · exact .inl h

theorem val_of_isBare (h : isBare x = true) : 0x20 < x.val ∧ x.val ≤ 0x7A := by
  rcases isBare_cases h with rfl | h | h | h
  · decide
  all_goals omega

theorem stays_of_isBare (h : isBare x = true) (follower : Option CodePoint) :
    stays inFlow x follower = true := by
  have other : ∀ y : CodePoint, isBare y = false → x ≠ y := fun _ => ne_of_isBare h
  have range := (val_of_isBare h).2
  have gap : isGap x = false := by
    simp [isGap, isLineEnd, other ' ' rfl, other '\t' rfl, other '\n' rfl, other '\r' rfl,
      show x.val ≠ 0x85 by omega, show x.val ≠ 0x2028 by omega, show x.val ≠ 0x2029 by omega]
  have mark : isFlowMark x = false := by
    simp [isFlowMark, other ',' rfl, other '[' rfl, other ']' rfl, show x.val ≠ 0x7B by omega,
      show x.val ≠ 0x7D by omega]
  simp [stays, gap, mark, other ':' rfl, other '?' rfl]

theorem isGap_of_isBare (h : isBare x = true) : isGap x = false := by
  have inWord := @stays_of_isBare false x h none
  simp only [stays, Bool.and_eq_true, Bool.not_eq_true'] at inWord
  exact inWord.1.1

/-- A bare word is read back, in brackets too. -/
theorem read_bare (bare : ∀ x ∈ t, isBare x = true) (h : c.rest = t ++ r)
    (stops : Stops inFlow indent (c.skip t.length) after newLine) :
    read inFlow indent c = (t, after, newLine) := by
  have words : ∀ turns, words inFlow indent (turns + 1) c = (t, after, newLine) := by
    intro turns
    induction t generalizing c with
    | nil => exact stops turns
    | cons x t ih =>
        obtain ⟨bare_x, bare_t⟩ := List.forall_mem_cons.mp bare
        have next : c.next.rest = t ++ r := by rw [Cursor.rest_next, h]; rfl
        rw [words_cons h (stays_of_isBare bare_x _), ih bare_t next stops]
  exact words _

end Plain

end Yaml

end RouteDocs
