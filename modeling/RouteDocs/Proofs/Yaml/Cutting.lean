import RouteDocs.Proofs.Yaml.Plain
import RouteDocs.Proofs.Yaml.Quoted
import RouteDocs.Yaml.Token

/-!
# Cutting Texts into Tokens

How states follow one another while a text is cut, and what one step does at each kind of token.

## Main Definitions

* `Yaml.Cutting.settle`: the state in which the next token is cut
* `Yaml.Cutting.Reaches`: a state from which cutting comes to the same as from another one
* `Yaml.Cutting.IsOptional`: the places for keys that need not become one
* `Yaml.Cutting.IsSpelling`: the raw texts that are cut as one scalar wherever they stand

## Main Statements

* `Yaml.Cutting.Reaches.trans`, `Yaml.Cutting.Reaches.of_step`: a run is put together from steps
* `Yaml.Cutting.step_quoted`, `Yaml.Cutting.step_bare`: **a scalar is cut**
* `Yaml.Cutting.step_value`, `Yaml.Cutting.step_explicitKey`, `Yaml.Cutting.step_blockEntry`: a mark
  of a block is cut
* `Yaml.Cutting.isSpelling_plain`, `Yaml.Cutting.isSpelling_quoted`: what spells a scalar

## Design Notes

The number of rounds is a part of a run. A state reaches another one with at most one round for each
code point between them, so the rounds that a text gets are enough for all of its tokens.
-/

namespace RouteDocs

namespace Yaml

namespace Cutting

variable {s s' s₁ s₂ s₃ : Cutting} {n i : Nat} {x : CodePoint} {u r : Text}

/-! ### Reaching a State -/

/-- The state in which the next token is cut: behind gaps, where places for keys that are out of
reach are forgotten and deeper collections have ended. -/
def settle (s : Cutting) : Except Fault Cutting :=
  (skipGaps (s.cursor.rest.length + 1) s).refreshKeyPlaces.map fun s =>
    s.closeBlocks (some s.cursor.column)

theorem run_succ : run (n + 1) s = settle s >>= fun s =>
    match s.cursor.peek? with
    | none => (s.closeBlocks none).dropKeyPlace.map fun s => s.tokens.reverse
    | some c => step c s >>= run n := by
  rw [run, settle]
  cases (skipGaps (s.cursor.rest.length + 1) s).refreshKeyPlaces <;> rfl

/-- Nothing depends on what is settled before the next token. -/
theorem run_congr (same : settle s = settle s') : run n s = run n s' := by
  cases n with
  | zero => rfl
  | succ n => rw [run_succ, run_succ, same]

/-- **One state reaches another one** if cutting comes to the same from both, with at most one step
for each code point between them. -/
def Reaches (s s' : Cutting) : Prop :=
  ∃ k, k + s'.cursor.rest.length ≤ s.cursor.rest.length ∧ ∀ n, run (k + n) s = run n s'

namespace Reaches

theorem refl (s : Cutting) : Reaches s s :=
  ⟨0, by omega, fun n => by rw [Nat.zero_add]⟩

theorem trans (first : Reaches s₁ s₂) (second : Reaches s₂ s₃) : Reaches s₁ s₃ := by
  obtain ⟨k, less, same⟩ := first
  obtain ⟨m, less', same'⟩ := second
  exact ⟨k + m, by omega, fun n => by rw [Nat.add_assoc, same, same']⟩

theorem of_settle (same : settle s = settle s')
    (le : s'.cursor.rest.length ≤ s.cursor.rest.length) : Reaches s s' :=
  ⟨0, by omega, fun n => by rw [Nat.zero_add, run_congr same]⟩

/-- One token, and what is settled with the next one. -/
theorem of_step_settle (settled : settle s = .ok s₁) (rest : s₁.cursor.rest = x :: u)
    (cut : step x s₁ = .ok s₂) (same : settle s₂ = settle s')
    (less : s'.cursor.rest.length < s.cursor.rest.length) : Reaches s s' := by
  refine ⟨1, by omega, fun n => ?_⟩
  rw [Nat.add_comm, run_succ, settled]
  simp only [bind, Except.bind, Cursor.peek?, rest, List.head?_cons, cut]
  exact run_congr same

/-- One token. -/
theorem of_step (settled : settle s = .ok s₁) (rest : s₁.cursor.rest = x :: u)
    (cut : step x s₁ = .ok s') (less : s'.cursor.rest.length < s.cursor.rest.length) :
    Reaches s s' :=
  of_step_settle settled rest cut rfl less

end Reaches

/-! ### Gaps -/

/-- Whether a text begins with what is no gap and no comment. -/
def StartsToken (r : Text) : Prop :=
  ∀ x ∈ r.head?, x ≠ (' ' : CodePoint) ∧ x ≠ ('#' : CodePoint) ∧ isLineEnd x = false

theorem skipGaps_spaces (h : s.cursor.rest = spaces n ++ r) (start : StartsToken r) (turns : Nat) :
    skipGaps (turns + 1) s = s.moveTo (s.cursor.skip n) := by
  have passed : s.cursor.skipComment = s.cursor.skip n :=
    Cursor.skipComment_spaces h fun x hx => ⟨(start x hx).1, (start x hx).2.1⟩
  have inLine : (s.cursor.skip n).sees isLineEnd = false := by
    rw [Cursor.sees, Cursor.rest_skip, h, List.drop_left' (length_spaces n)]
    cases r with
    | nil => rfl
    | cons x r => exact (start x rfl).2.2
  rw [skipGaps, passed, inLine]
  rfl

theorem skipGaps_newLine (h : s.cursor.rest = newLine n ++ r) (start : StartsToken r)
    (turns : Nat) :
    skipGaps (turns + 2) s =
      { s with cursor := s.cursor.skip (n + 1), mayBeKey := s.mayBeKey || !s.inFlow } := by
  have h : s.cursor.rest = ('\n' : CodePoint) :: (spaces n ++ r) := h
  have here : s.cursor.skipComment = s.cursor := Cursor.skipComment_none fun x hx => by
    rw [h] at hx
    obtain rfl := Option.mem_some_iff.mp hx
    exact ⟨by decide, by decide⟩
  have next : s.cursor.next.rest = spaces n ++ r := by rw [Cursor.rest_next, h]; rfl
  rw [skipGaps, here, Cursor.sees_of_rest h, if_pos (by rfl), Cursor.lineBreak_lineFeed h,
    skipGaps_spaces next start]
  rfl

theorem settle_spaces (h : s.cursor.rest = spaces n ++ r) (start : StartsToken r) :
    settle s = settle (s.moveTo (s.cursor.skip n)) := by
  have rest : (s.moveTo (s.cursor.skip n)).cursor.rest = spaces 0 ++ r := by
    change (s.cursor.skip n).rest = _
    rw [Cursor.rest_skip, h, List.drop_left' (length_spaces n)]
    rfl
  rw [settle, settle, skipGaps_spaces h start, skipGaps_spaces rest start]
  rfl

/-- A line end between brackets. -/
theorem settle_newLine_inFlow (h : s.cursor.rest = newLine n ++ r) (start : StartsToken r)
    (flow : s.inFlow = true) : settle s = settle (s.moveTo (s.cursor.skip (n + 1))) := by
  have rest : (s.moveTo (s.cursor.skip (n + 1))).cursor.rest = spaces 0 ++ r := by
    change (s.cursor.skip (n + 1)).rest = _
    rw [← length_newLine, Cursor.rest_skip_append h]
    rfl
  have some : s.cursor.rest.length = n + r.length + 1 := by rw [h]; simp; omega
  rw [settle, settle, some, skipGaps_newLine h start, skipGaps_spaces rest start, flow]
  simp [moveTo, Cursor.skip]

theorem closeBlocks_none_deeper (head : ∀ j ∈ s.indents.head?, j ≤ i) :
    s.closeBlocks (some i) = s := by
  obtain ⟨c, ts, is, b, k, outer⟩ := s
  unfold closeBlocks
  split
  · rfl
  · cases is with
    | nil => rfl
    | cons j is =>
        have le : j ≤ i := head j rfl
        simp [Nat.not_lt.mpr le]

/-! ### Places for Keys -/

/-- The colon of a key need not follow. -/
def IsOptional (k : Option KeyPlace) : Prop := ∀ p ∈ k, p.isRequired = false

theorem isOptional_none : IsOptional none := nofun

/-- A place on an earlier line is forgotten. -/
theorem refreshKeyPlace_earlier {k : Option KeyPlace} {c : Cursor} (h : IsOptional k)
    (earlier : ∀ p ∈ k, p.line < c.line) : refreshKeyPlace c k = .ok none := by
  cases k with
  | none => rfl
  | some p =>
      rw [refreshKeyPlace, h p rfl, beq_false_of_ne (Nat.ne_of_lt (earlier p rfl))]
      rfl

theorem dropKeyPlace_optional (h : IsOptional s.keyPlace) :
    s.dropKeyPlace = .ok { s with keyPlace := none } := by
  unfold dropKeyPlace
  split
  · next k eq => rw [h k eq]; rfl
  · next eq => rw [← eq]

/-- The state in which the position may be the place of a key. -/
def marked (s : Cutting) : Cutting :=
  if s.mayBeKey then
    { s with keyPlace := some ⟨s.tokens.length, !s.inFlow && s.indents.head? == some s.cursor.column,
      s.cursor.index, s.cursor.line, s.cursor.column⟩ }
  else s

theorem markKeyPlace_eq (h : IsOptional s.keyPlace) : s.markKeyPlace = .ok s.marked := by
  obtain ⟨c, tokens, indents, mayBeKey, keyPlace, outer⟩ := s
  unfold markKeyPlace marked
  cases mayBeKey with
  | false => rfl
  | true =>
      rw [dropKeyPlace_optional h]
      rfl

@[simp] theorem marked_cursor : s.marked.cursor = s.cursor := by unfold marked; split <;> rfl

@[simp] theorem marked_tokens : s.marked.tokens = s.tokens := by unfold marked; split <;> rfl

@[simp] theorem marked_indents : s.marked.indents = s.indents := by unfold marked; split <;> rfl

@[simp] theorem marked_outer : s.marked.outerKeyPlaces = s.outerKeyPlaces := by
  unfold marked
  split <;> rfl

@[simp] theorem marked_inFlow : s.marked.inFlow = s.inFlow := by rw [inFlow, marked_outer, inFlow]

/-! ### Scalars -/

/-- The state after a scalar. -/
def afterScalar (s : Cutting) (isPlain : Bool) (t : Text) (c : Cursor) (newLine : Bool) : Cutting :=
  ((s.marked.allowKey newLine).moveTo c).emit (.scalar isPlain t)

variable {isPlain isDouble newLine : Bool} {raw t : Text} {c : Cursor}

theorem afterScalar_eq : s.afterScalar isPlain t c newLine =
    ⟨c, .scalar isPlain t :: s.tokens, s.indents, newLine, s.marked.keyPlace, s.outerKeyPlaces⟩ := by
  unfold afterScalar emit moveTo allowKey
  simp only [marked_tokens, marked_indents, marked_outer]

theorem keyLike_eq {read : Cursor → Except Fault (Token × Cursor)}
    (optional : IsOptional s.keyPlace) (scalar : read s.cursor = .ok (.scalar isPlain t, c)) :
    s.keyLike read = .ok (s.afterScalar isPlain t c false) := by
  rw [keyLike, markKeyPlace_eq optional]
  change (read s.marked.cursor >>= _) = _
  rw [marked_cursor, scalar]
  rfl

/-- **A quoted scalar is cut.** -/
theorem step_quoted (optional : IsOptional s.keyPlace) (spelt : Quoted.Spells isDouble raw t)
    (h : s.cursor.rest = Text.between (Quoted.mark isDouble) raw ++ r)
    (single : r.head? ≠ some (Quoted.mark isDouble)) :
    step (Quoted.mark isDouble) s = .ok (s.afterScalar false t
      (s.cursor.skip (Text.between (Quoted.mark isDouble) raw).length) false) := by
  have read := Quoted.read_spelling spelt h single
  have mark : isDocumentMark s.cursor.rest = false := by
    rw [h]
    refine isDocumentMark_eq_false ?_
    cases isDouble <;> decide
  unfold step
  dsimp only
  rw [mark, Bool.and_false]
  cases isDouble with
  | false =>
      change s.keyLike (fun c => (Quoted.read false c).map fun p => (.scalar false p.1, p.2)) = _
      refine keyLike_eq optional ?_
      rw [read]
      rfl
  | true =>
      change s.keyLike (fun c => (Quoted.read true c).map fun p => (.scalar false p.1, p.2)) = _
      refine keyLike_eq optional ?_
      rw [read]
      rfl

/-- A quotation mark is a leading indicator. -/
theorem ne_quote_of_not_leading (lead : isLeadingIndicator x = false) :
    (x == '\'') = false ∧ (x == '"') = false := by
  refine ⟨?_, ?_⟩ <;>
    (rw [beq_eq_false_iff_ne]; rintro rfl; cases lead)

/-- What is no indicator, or a sign within a word, begins a plain scalar. -/
theorem beginsPlain_eq_true {inFlow : Bool} (lead : isLeadingIndicator x = false)
    (gap : isGap x = false)
    (goes : (x == '-' || x == '?' || x == ':') = true → endOr isGap u.head? = false)
    (flow : inFlow = true → x ≠ ('?' : CodePoint) ∧ x ≠ (':' : CodePoint)) :
    beginsPlain inFlow x u.head? = true := by
  obtain ⟨single, double⟩ := ne_quote_of_not_leading lead
  simp only [isLeadingIndicator, Bool.or_eq_false_iff] at lead
  obtain ⟨⟨⟨⟨⟨⟨⟨⟨⟨⟨⟨⟨⟨⟨⟨hash, comma⟩, opening⟩, closing⟩, brace⟩, brace'⟩, anchor⟩, star⟩, tag⟩, pipe⟩,
    greater⟩, -⟩, -⟩, percent⟩, at_⟩, tick⟩ := lead
  have marks : ("-?:,[]#&*!|>'\"%@" : String).toList = ['-', '?', ':', ',', '[', ']', '#', '&',
    '*', '!', '|', '>', '\'', '"', '%', '@'] := by decide
  unfold beginsPlain isAmong
  rw [marks]
  simp only [List.any_cons, List.any_nil, gap, comma, opening, closing, hash, anchor, star, tag,
    pipe, greater, single, double, percent, at_, brace, brace', tick, Bool.or_false,
    Bool.false_or]
  cases isSign : x == '-' || x == '?' || x == ':' with
  | false => simp_all
  | true =>
      rw [goes isSign]
      cases minus : x == '-' with
      | true => simp
      | false =>
          cases inFlow with
          | true => simp [minus, flow rfl] at isSign
          | false =>
              simp only [minus, Bool.false_or] at isSign
              simp [isSign]

/-- What begins with no indicator is a plain scalar. -/
theorem step_eq_plain (h : s.cursor.rest = x :: u) (lead : isLeadingIndicator x = false)
    (gap : isGap x = false) (mark : isDocumentMark (x :: u) = false)
    (goes : (x == '-' || x == '?' || x == ':') = true → endOr isGap u.head? = false)
    (flow : s.inFlow = true → x ≠ ('?' : CodePoint) ∧ x ≠ (':' : CodePoint)) :
    step x s = s.plain := by
  have plain : beginsPlain s.inFlow x u.head? = true := beginsPlain_eq_true lead gap goes flow
  obtain ⟨single, double⟩ := ne_quote_of_not_leading lead
  simp only [isLeadingIndicator, Bool.or_eq_false_iff] at lead
  obtain ⟨⟨⟨⟨⟨⟨⟨⟨⟨⟨⟨⟨⟨⟨⟨-, comma⟩, opening⟩, closing⟩, brace⟩, brace'⟩, anchor⟩, star⟩, tag⟩, pipe⟩,
    greater⟩, -⟩, -⟩, percent⟩, -⟩, -⟩ := lead
  have sign : ∀ y : CodePoint, (y == '-' || y == '?' || y == ':') = true →
      (x == y && endOr isGap u.head?) = false := by
    intro y isSign
    rw [Bool.and_eq_false_iff]
    cases same : x == y with
    | false => exact .inl rfl
    | true => exact .inr (goes (eq_of_beq same ▸ isSign))
  have inside : ∀ y : CodePoint, (y == '?' || y == ':') = true →
      (x == y && (s.inFlow || endOr isGap u.head?)) = false := by
    intro y isSign
    cases inFlow : s.inFlow with
    | false => exact sign y (by rw [Bool.or_assoc, isSign, Bool.or_true])
    | true =>
        rw [Bool.and_eq_false_iff, beq_eq_false_iff_ne]
        left
        rintro rfl
        simp [flow inFlow] at isSign
  unfold step
  dsimp only
  rw [h, mark, Bool.and_false]
  simp only [List.tail_cons, percent, opening, brace, closing, brace', comma, sign '-' rfl, inside '?' rfl,
    inside ':' rfl, star, anchor, tag, pipe, greater, single, double, plain, Bool.false_and,
    Bool.false_eq_true, if_false, if_true]

/-! ### Indicators -/

/-- The mark of a document is three hyphens or three dots. -/
theorem of_isDocumentMark (h : isDocumentMark (x :: u) = true) :
    ∃ v, u = x :: x :: v ∧ (x = ('-' : CodePoint) ∨ x = ('.' : CodePoint)) := by
  rcases u with _ | ⟨y, _ | ⟨z, v⟩⟩
  · cases h
  · cases h
  · simp only [isDocumentMark, Bool.and_eq_true, Bool.or_eq_true, beq_iff_eq] at h
    obtain ⟨⟨⟨sign, rfl⟩, rfl⟩, -⟩ := h
    exact ⟨v, rfl, sign⟩

/-- No mark of a document has a gap behind its first code point. -/
theorem isDocumentMark_of_isGap {g : CodePoint} (gap : isGap g = true) :
    isDocumentMark (x :: g :: u) = false := by
  rw [Bool.eq_false_iff]
  intro mark
  obtain ⟨v, same, sign⟩ := of_isDocumentMark mark
  obtain rfl : g = x := (List.cons.inj same).1
  rcases sign with rfl | rfl <;> cases gap

/-- A gap stands behind what is cut next. -/
theorem endOr_isGap_of_rest {g : CodePoint} (h : s.cursor.rest = x :: g :: u)
    (gap : isGap g = true) : endOr isGap s.cursor.rest.tail.head? = true := by
  rw [h]
  exact gap

theorem step_value {g : CodePoint} (h : s.cursor.rest = (':' : CodePoint) :: g :: u)
    (gap : isGap g = true) : step ':' s = s.value := by
  have mark : isDocumentMark s.cursor.rest = false := h ▸ isDocumentMark_of_isGap gap
  have ends : (s.inFlow || endOr isGap s.cursor.rest.tail.head?) = true :=
    Bool.or_eq_true_iff.mpr (.inr (endOr_isGap_of_rest h gap))
  unfold step
  dsimp only
  rw [mark, Bool.and_false, ends]
  rfl

theorem step_explicitKey {g : CodePoint} (h : s.cursor.rest = ('?' : CodePoint) :: g :: u)
    (gap : isGap g = true) : step '?' s = s.explicitKey := by
  have mark : isDocumentMark s.cursor.rest = false := h ▸ isDocumentMark_of_isGap gap
  have ends : (s.inFlow || endOr isGap s.cursor.rest.tail.head?) = true :=
    Bool.or_eq_true_iff.mpr (.inr (endOr_isGap_of_rest h gap))
  unfold step
  dsimp only
  rw [mark, Bool.and_false, ends]
  rfl

theorem step_blockEntry {g : CodePoint} (h : s.cursor.rest = ('-' : CodePoint) :: g :: u)
    (gap : isGap g = true) : step '-' s = s.blockEntry := by
  have mark : isDocumentMark s.cursor.rest = false := h ▸ isDocumentMark_of_isGap gap
  unfold step
  dsimp only
  rw [mark, Bool.and_false, endOr_isGap_of_rest h gap]
  rfl

/-- The marks of collections in brackets. -/
theorem step_flowMark (h : s.cursor.rest = x :: u) (mark : Plain.isFlowMark x = true) :
    step x s =
      if x == '[' then s.openFlow .flowSequenceStart
      else if x.val == 0x7B then s.openFlow .flowMappingStart
      else if x == ']' then s.closeFlow .flowSequenceEnd
      else if x.val == 0x7D then s.closeFlow .flowMappingEnd
      else s.flowEntry := by
  have other : ∀ y : CodePoint, Plain.isFlowMark y = false → x ≠ y := by
    rintro y no rfl
    rw [mark] at no
    cases no
  have document : isDocumentMark s.cursor.rest = false := by
    rw [h]
    exact isDocumentMark_eq_false ⟨other '-' rfl, other '.' rfl⟩
  have percent : (x == '%') = false := beq_false_of_ne (other '%' rfl)
  unfold step
  dsimp only
  rw [document, Bool.and_false, percent]
  simp only [Plain.isFlowMark, Bool.or_eq_true, beq_iff_eq] at mark
  rcases mark with (((rfl | rfl) | rfl) | brace) | brace
  · rfl
  · rfl
  · rfl
  · obtain rfl : x = '\x7b' := Fin.ext brace
    rfl
  · obtain rfl : x = '\x7d' := Fin.ext brace
    rfl

/-- What is printed plainly goes on with a gap, with the next code point or with what follows. -/
theorem head?_plainFrom {fold : Bool} {deep column : Nat} {y : CodePoint} (gap : isGap y = false)
    (next : r.head? ≠ some y) (h : (plainFrom fold deep column 0 t ++ r).head? = some y) :
    ∃ t', t = y :: t' := by
  have pending : ∀ (t : Text) (column n : Nat),
      ∃ g u, plainFrom fold deep column (n + 1) t = g :: u ∧ isGap g = true := by
    intro t
    induction t with
    | nil => exact fun _ n => ⟨' ', spaces n, rfl, rfl⟩
    | cons z t ih =>
        intro column n
        rw [plainFrom]
        split
        · exact ih column (n + 1)
        · split
          · exact ⟨_, _, rfl, rfl⟩
          · exact ⟨' ', _, rfl, rfl⟩
  cases t with
  | nil => exact absurd h next
  | cons z t =>
      rw [plainFrom] at h
      split at h
      · obtain ⟨g, u, eq, isGap_g⟩ := pending t column 0
        rw [eq] at h
        obtain rfl : g = y := Option.some.inj h
        rw [isGap_g] at gap
        cases gap
      · rw [if_neg (by simp)] at h
        obtain rfl : z = y := Option.some.inj h
        exact ⟨t, rfl⟩

/-- What is printed plainly begins with its first code point, which stands for itself. -/
theorem plain_start (fold : Bool) (deep column : Nat) (plain : Plain.IsPlain t)
    (next : ∀ y ∈ r.head?, y ≠ ('-' : CodePoint) ∧ y ≠ ('.' : CodePoint)) :
    ∃ x u, Yaml.plain fold deep column t ++ r = x :: u ∧ isLeadingIndicator x = false ∧
      isGap x = false ∧ isDocumentMark (x :: u) = false ∧
      ((x == '-' || x == '?' || x == ':') = true → endOr isGap u.head? = false) := by
  obtain ⟨x, t, rfl⟩ := List.exists_cons_of_ne_nil plain.nonempty
  have indicators := plain.indicators
  simp only [hasIndicator, Bool.or_eq_false_iff] at indicators
  obtain ⟨⟨⟨⟨hyphens, dots⟩, lead⟩, alone⟩, inner⟩ := indicators
  have space : x ≠ (' ' : CodePoint) := fun same => plain.head (congrArg some same)
  have gap := Plain.isGap_of_isPrintable (plain.printable x (by simp)) (plain.inLine x (by simp)) space
  refine ⟨x, plainFrom fold deep (column + 0 + 1) 0 t ++ r, ?_, lead, gap, ?_, fun sign => ?_⟩
  · rw [Yaml.plain, plainFrom, if_neg (by simpa using space), if_neg (by simp)]
    rfl
  · rw [Bool.eq_false_iff]
    intro mark
    obtain ⟨v, same, isMark⟩ := of_isDocumentMark mark
    have notNext : r.head? ≠ some x := by
      intro first
      obtain ⟨hyphen, dot⟩ := next x first
      rcases isMark with rfl | rfl
      · exact hyphen rfl
      · exact dot rfl
    obtain ⟨t, rfl⟩ := head?_plainFrom gap notNext (congrArg List.head? same)
    rw [plainFrom, if_neg (by simpa using space), if_neg (by simp)] at same
    obtain ⟨t, rfl⟩ := head?_plainFrom gap notNext (congrArg List.head? (List.cons.inj same).2)
    rcases isMark with rfl | rfl
    · cases hyphens
    · cases dots
  · have goes : endsHere t = false := by
      rw [Bool.and_eq_false_iff] at alone
      refine alone.resolve_left fun none => ?_
      simp only [Bool.or_eq_false_iff] at none
      simp [none.1.1, none.1.2, none.2] at sign
    cases t with
    | nil => cases goes
    | cons y t =>
        have separator : isSeparator y = false := goes
        have other : y ≠ (' ' : CodePoint) := by rintro rfl; cases separator
        rw [plainFrom, if_neg (by simpa using other), if_neg (by simp)]
        exact Plain.isSeparator_of_isGap separator

/-- By how much further lines of a plain scalar must be indented. -/
def plainIndent (s : Cutting) : Nat := s.indents.head?.elim 0 (· + 1)

@[simp] theorem marked_plainIndent : s.marked.plainIndent = s.plainIndent := by
  rw [plainIndent, marked_indents, plainIndent]

theorem plain_eq {after : Cursor} (optional : IsOptional s.keyPlace)
    (read : Plain.read s.inFlow s.plainIndent s.cursor = (t, after, newLine)) :
    s.plain = .ok (s.afterScalar true t after newLine) := by
  rw [plain, markKeyPlace_eq optional]
  have read : Plain.read s.marked.inFlow (s.marked.indents.head?.elim 0 (· + 1)) s.marked.cursor =
      (t, after, newLine) := by
    rw [marked_inFlow, marked_cursor, ← read, ← marked_plainIndent]
    rfl
  simp only [bind, Except.bind]
  rw [read]
  rfl

theorem startsToken (lead : isLeadingIndicator x = false) (gap : isGap x = false) :
    StartsToken (x :: u) := by
  obtain ⟨white, ends⟩ := isGap_eq_false.mp gap
  rintro y ⟨⟩
  refine ⟨?_, ?_, ends⟩
  · rintro rfl
    cases white
  · rintro rfl
    cases lead

/-- A bare word is printed as it is. -/
theorem plain_bare {fold : Bool} {deep column : Nat} (bare : ∀ x ∈ t, Plain.isBare x = true) :
    Yaml.plain fold deep column t = t := by
  unfold Yaml.plain
  induction t generalizing column with
  | nil => rfl
  | cons x t ih =>
      obtain ⟨bare_x, bare_t⟩ := List.forall_mem_cons.mp bare
      have space : x ≠ (' ' : CodePoint) := by rintro rfl; cases bare_x
      rw [plainFrom, if_neg (by simpa using space), if_neg (by simp), ih bare_t]
      rfl

/-- **A bare word is cut**, between brackets too. -/
theorem step_bare {after : Cursor} (optional : IsOptional s.keyPlace) (plain : Plain.IsPlain t)
    (bare : ∀ x ∈ t, Plain.isBare x = true) (h : s.cursor.rest = t ++ r)
    (next : ∀ y ∈ r.head?, y ≠ ('-' : CodePoint) ∧ y ≠ ('.' : CodePoint))
    (stops : Plain.Stops s.inFlow s.plainIndent (s.cursor.skip t.length) after newLine) :
    ∃ x u, t ++ r = x :: u ∧ StartsToken (x :: u) ∧
      step x s = .ok (s.afterScalar true t after newLine) := by
  obtain ⟨x, u, eq, lead, gap, mark, goes⟩ := plain_start false 0 0 plain next
  rw [plain_bare bare] at eq
  have isBare_x : Plain.isBare x = true := by
    cases t with
    | nil => exact absurd rfl plain.nonempty
    | cons y t =>
        obtain ⟨rfl, -⟩ := List.cons.inj eq
        exact bare y (by simp)
  refine ⟨x, u, eq, startsToken lead gap, ?_⟩
  rw [step_eq_plain (h.trans eq) lead gap mark goes fun _ => ?_]
  · exact plain_eq optional (Plain.read_bare bare h stops)
  · constructor <;> (rintro rfl; cases isBare_x)

/-! ### Spellings in Blocks -/

/-- **A raw text is cut as one scalar** wherever it stands in a block that is not indented too far:
what is in the state besides comes to nothing, and neither do gaps that are passed over already. -/
def IsSpelling (deep : Nat) (raw : Text) (isPlain : Bool) (t : Text) : Prop :=
  raw ≠ [] ∧ ∀ (s : Cutting) (r : Text) (after : Cursor) (newLine : Bool), s.inFlow = false →
    IsOptional s.keyPlace → s.plainIndent ≤ deep → s.plainIndent ≤ s.cursor.column + 1 →
    s.cursor.rest = raw ++ r →
    (∀ y ∈ r.head?, y = ('\n' : CodePoint) ∨ y = (':' : CodePoint)) →
    Plain.Stops false s.plainIndent (s.cursor.skip raw.length) after newLine →
      ∃ x u, raw ++ r = x :: u ∧ StartsToken (x :: u) ∧ ∃ after' newLine',
        step x s = .ok (s.afterScalar isPlain t after' newLine') ∧
          (after' = after ∧ newLine' = newLine ∨
            after' = s.cursor.skip raw.length ∧ newLine' = false)

theorem isSpelling_plain {fold : Bool} {deep column : Nat} (plain : Plain.IsPlain t)
    (pos : 0 < deep) : IsSpelling deep (Yaml.plain fold deep column t) true t := by
  refine ⟨fun none => ?_, ?_⟩
  · obtain ⟨x, u, eq, -⟩ := plain_start (r := []) fold deep column plain nofun
    rw [none] at eq
    cases eq
  intro s r after newLine block optional indent start h next stops
  have next : ∀ y ∈ r.head?, y ≠ ('-' : CodePoint) ∧ y ≠ ('.' : CodePoint) := fun y hy => by
    rcases next y hy with rfl | rfl <;> decide
  obtain ⟨x, u, eq, lead, gap, mark, goes⟩ := plain_start fold deep column plain next
  refine ⟨x, u, eq, startsToken lead gap, after, newLine, ?_, .inl ⟨rfl, rfl⟩⟩
  rw [step_eq_plain (h.trans eq) lead gap mark goes (by simp [block])]
  refine plain_eq optional ?_
  rw [block]
  exact Plain.read_plain plain h indent pos start stops

theorem isSpelling_quoted (spelt : Quoted.Spells isDouble raw t) (deep : Nat) :
    IsSpelling deep (Text.between (Quoted.mark isDouble) raw) false t := by
  refine ⟨by simp [Text.between], ?_⟩
  intro s r after newLine block optional indent start h next stops
  have single : r.head? ≠ some (Quoted.mark isDouble) := fun same => by
    rcases next _ same with eq | eq <;> cases isDouble <;> cases eq
  refine ⟨Quoted.mark isDouble, raw ++ [Quoted.mark isDouble] ++ r, rfl, ?_, _, _,
    step_quoted optional spelt h single, .inr ⟨rfl, rfl⟩⟩
  rintro x ⟨⟩
  cases isDouble <;> decide

/-! ### Tokens Put in Before Others -/

/-- A token is put in before those that come after a place. -/
theorem emitAt_length (later : List Token) {ts : List Token} {is : List Nat} {b : Bool} {k : Option KeyPlace}
    {outer : List (Option KeyPlace)} (token : Token) :
    emitAt ⟨c, later ++ ts, is, b, k, outer⟩ ts.length token =
      ⟨c, later ++ token :: ts, is, b, k, outer⟩ := by
  have size : (later ++ ts).length - ts.length = later.length := by simp
  simp only [emitAt, size, List.take_left, List.drop_left]

end Cutting

end Yaml

end RouteDocs
