import RouteDocs.Proofs.Yaml.Flow

/-!
# Tokens of Printed Blocks

What cutting does at the beginnings and ends of lines, and with a scalar, a key and an item there.

## Main Definitions

* `Yaml.Cutting.inBlock`: a state in a block where no place for a key is remembered
* `Yaml.Cutting.StartsLine`: what begins a line with an indentation

## Main Statements

* `Yaml.Cutting.settle_line`, `Yaml.Cutting.settle_close`: a line end, and the end of a collection
* `Yaml.Cutting.reaches_scalar`: **a scalar that ends with its line is cut**
* `Yaml.Cutting.reaches_simpleKey`, `Yaml.Cutting.reaches_explicitKey`: **a key is cut**, before its
  colon or after a question mark
* `Yaml.Cutting.reaches_blockEntry`: **the hyphen before an item is cut**

## Design Notes

Every line ends in a state in which no place for a key is remembered, so a block is cut line by line
between states of one form.
-/

namespace RouteDocs

namespace Yaml

namespace Cutting

variable {s : Cutting} {c : Cursor} {ts : List Token} {is : List Nat} {b isPlain : Bool} {i m deep : Nat}
  {x : CodePoint} {t u r raw : Text}

/-! ### States within Blocks -/

/-- A state in a block where no place for a key is remembered. -/
def inBlock (c : Cursor) (ts : List Token) (is : List Nat) (mayBeKey : Bool) : Cutting :=
  ⟨c, ts, is, mayBeKey, none, []⟩

/-- Whether a text begins a line with an indentation, and no mark of a document stands there. -/
def StartsLine (i : Nat) (r : Text) : Prop :=
  StartsToken r ∧ isDocumentMark (spaces i ++ r) = false

/-- Behind an indentation stands no mark of a document, so that the first column decides. -/
theorem StartsLine.of_token {x : CodePoint} (start : StartsToken (x :: u))
    (mark : isDocumentMark (x :: u) = false) (i : Nat) : StartsLine i (x :: u) := by
  refine ⟨start, ?_⟩
  cases i with
  | zero => exact mark
  | succ i =>
      rw [spaces_succ]
      exact isDocumentMark_eq_false (by decide)

/-- A state in a block before a token is settled. -/
theorem settle_token {k : Option KeyPlace} (block : s.outerKeyPlaces = []) (start : StartsToken s.cursor.rest)
    (place : refreshKeyPlace s.cursor s.keyPlace = .ok k)
    (head : ∀ j ∈ s.indents.head?, j ≤ s.cursor.column) :
    settle s = .ok { s with keyPlace := k } := by
  obtain ⟨c, ts, is, b, k', outer⟩ := s
  obtain rfl : outer = [] := block
  rw [settle, skipGaps_spaces (n := 0) rfl start]
  change (refreshKeyPlaces ⟨c, ts, is, b, k', []⟩).map _ = _
  rw [refreshKeyPlaces, place]
  exact congrArg Except.ok (closeBlocks_none_deeper (s := ⟨c, ts, is, b, k, []⟩) head)

/-- A line end in a block makes a key possible, and a place for a key on the line before is
forgotten. -/
theorem settle_line (block : s.outerKeyPlaces = []) (h : s.cursor.rest = newLine i ++ r)
    (start : StartsToken r) (optional : IsOptional s.keyPlace)
    (before : ∀ p ∈ s.keyPlace, p.line ≤ s.cursor.line) :
    settle s = settle (inBlock (s.cursor.skip (i + 1)) s.tokens s.indents true) := by
  obtain ⟨c, ts, is, b, k, outer⟩ := s
  obtain rfl : outer = [] := block
  have rest : (c.skip (i + 1)).rest = spaces 0 ++ r := by
    rw [← length_newLine, Cursor.rest_skip_append h]
    rfl
  have line : (c.skip (i + 1)).line = c.line + 1 := by rw [Cursor.skip_newLine h]
  have some : c.rest.length = i + r.length + 1 := by
    change c.rest = _ at h
    rw [h]
    simp
    omega
  have place : refreshKeyPlace (c.skip (i + 1)) k = .ok none :=
    refreshKeyPlace_earlier optional fun p hp => by
      rw [line]
      exact Nat.lt_succ_of_le (before p hp)
  rw [settle, settle]
  change (refreshKeyPlaces (skipGaps (c.rest.length + 1) _)).map _ = _
  rw [some, skipGaps_newLine h start, skipGaps_spaces (n := 0) rest start]
  have key : (b || !inFlow ⟨c, ts, is, b, k, []⟩) = true := Bool.or_true b
  rw [key]
  change (refreshKeyPlaces ⟨c.skip (i + 1), ts, is, true, k, []⟩).map _ =
    (refreshKeyPlaces ⟨c.skip (i + 1), ts, is, true, none, []⟩).map _
  rw [refreshKeyPlaces, refreshKeyPlaces, place]
  rfl

/-- A place for a key on an earlier line is forgotten. -/
theorem settle_forget (block : s.outerKeyPlaces = []) (start : StartsToken s.cursor.rest)
    (optional : IsOptional s.keyPlace) (before : ∀ p ∈ s.keyPlace, p.line < s.cursor.line) :
    settle s = settle (inBlock s.cursor s.tokens s.indents s.mayBeKey) := by
  obtain ⟨c, ts, is, b, k, outer⟩ := s
  obtain rfl : outer = [] := block
  have rest : c.rest = spaces 0 ++ c.rest := rfl
  have place : refreshKeyPlace c k = .ok none := refreshKeyPlace_earlier optional before
  rw [settle, settle, skipGaps_spaces (s := ⟨c, ts, is, b, k, []⟩) rest start,
    skipGaps_spaces (s := inBlock c ts is b) rest start]
  change (refreshKeyPlaces ⟨c, ts, is, b, k, []⟩).map _ =
    (refreshKeyPlaces ⟨c, ts, is, b, none, []⟩).map _
  rw [refreshKeyPlaces, refreshKeyPlaces, place]
  rfl

/-- A collection that is indented deeper than the next token ends before it. -/
theorem settle_close (start : StartsToken c.rest) (less : c.column < m) :
    settle (inBlock c ts (m :: is) b) = settle (inBlock c (.blockEnd :: ts) is b) := by
  have rest : c.rest = spaces 0 ++ c.rest := rfl
  rw [settle, settle, skipGaps_spaces (s := inBlock c ts (m :: is) b) rest start,
    skipGaps_spaces (s := inBlock c (.blockEnd :: ts) is b) rest start]
  change Except.ok (closeBlocks (some c.column) (inBlock c ts (m :: is) b)) =
    Except.ok (closeBlocks (some c.column) (inBlock c (.blockEnd :: ts) is b))
  congr 1
  unfold closeBlocks
  simp [inBlock, inFlow, less, List.replicate_succ']

/-! ### Scalars -/

theorem settle_inBlock (start : StartsToken c.rest) (head : ∀ j ∈ is.head?, j ≤ c.column) :
    settle (inBlock c ts is b) = .ok (inBlock c ts is b) :=
  settle_token (s := inBlock c ts is b) rfl start rfl head

/-- The place that a value scalar is remembered as need not become a key. -/
theorem marked_inBlock (deeper : ∀ j ∈ is.head?, j < c.column) :
    IsOptional (inBlock c ts is b).marked.keyPlace ∧
      ∀ p ∈ (inBlock c ts is b).marked.keyPlace, p.line = c.line := by
  unfold marked
  cases b with
  | false => exact ⟨isOptional_none, fun _ none => (Option.not_mem_none _ none).elim⟩
  | true =>
      have required : (!(inBlock c ts is true).inFlow && is.head? == some c.column) = false := by
        cases is with
        | nil => rfl
        | cons j is => simpa [inFlow, inBlock] using Nat.ne_of_lt (deeper j rfl)
      constructor
      · rintro p ⟨⟩
        exact required
      · rintro p ⟨⟩
        rfl

/-- A plain scalar may go on in a line that is indented deeper than the innermost collection. -/
theorem plainIndent_inBlock_le {k : Nat} (less : ∀ j ∈ is.head?, j < k) :
    (inBlock c ts is b).plainIndent ≤ k := by
  cases is with
  | nil => exact Nat.zero_le k
  | cons j is => exact less j rfl

/-- **A scalar that ends with its line is cut**, and the next line is reached. -/
theorem reaches_scalar (spelt : IsSpelling deep raw isPlain t)
    (h : c.rest = raw ++ (newLine i ++ r)) (start : StartsLine i r)
    (deeper : ∀ j ∈ is.head?, j < c.column) (indent : ∀ j ∈ is.head?, j < deep)
    (stop : r = [] ∨ ∃ j ∈ is.head?, i ≤ j) :
    Reaches (inBlock c ts is b)
      (inBlock (c.skip (raw.length + (i + 1))) (.scalar isPlain t :: ts) is true) := by
  have stops : Plain.Stops false (inBlock c ts is b).plainIndent (c.skip raw.length)
      (c.skip (raw.length + (i + 1))) true := by
    rw [Cursor.skip_add]
    refine Plain.stops_newLine (Cursor.rest_skip_append h) start.2
      (fun x hx => ⟨(start.1 x hx).1, (start.1 x hx).2.2⟩) ?_
    rcases stop with rfl | ⟨j, hj, le⟩
    · exact .inl rfl
    · refine .inr ⟨rfl, ?_⟩
      change i < is.head?.elim 0 (· + 1)
      rw [Option.mem_def.mp hj]
      exact Nat.lt_succ_of_le le
  obtain ⟨x, u, eq, starts, after, newLine', cut, ends⟩ :=
    spelt.2 (inBlock c ts is b) (newLine i ++ r) _ true rfl isOptional_none
      (plainIndent_inBlock_le indent) (Nat.le_succ_of_le (plainIndent_inBlock_le deeper)) h
      (fun y hy => .inl (Option.some.inj hy).symm) stops
  have rest : c.rest = x :: u := h.trans eq
  have some : 0 < raw.length := List.length_pos_iff.mpr spelt.1
  have settled : settle (inBlock c ts is b) = .ok (inBlock c ts is b) :=
    settle_inBlock (rest ▸ starts) fun j hj => (deeper j hj).le
  obtain ⟨optional, line⟩ : IsOptional (inBlock c ts is b).marked.keyPlace ∧ _ :=
    marked_inBlock deeper
  have atEnd : (c.skip raw.length).rest = newLine i ++ r := Cursor.rest_skip_append h
  have next : (c.skip (raw.length + (i + 1))).rest = r := by
    rw [Cursor.skip_add, Cursor.skip_newLine atEnd]
  have later : c.line < (c.skip (raw.length + (i + 1))).line := by
    rw [Cursor.skip_add, Cursor.skip_newLine atEnd]
    exact Nat.lt_succ_of_le (Cursor.line_le_skip _ c)
  rw [afterScalar_eq] at cut
  have size : c.rest.length = raw.length + (i + 1 + r.length) := by rw [h]; simp
  rcases ends with ⟨rfl, rfl⟩ | ⟨rfl, rfl⟩
  -- A plain scalar takes the line end with it.
  · refine (Reaches.of_step settled rest cut ?_).trans (.of_settle ?_ le_rfl)
    · change (c.skip (raw.length + (i + 1))).rest.length < c.rest.length
      rw [next, size]
      omega
    · exact settle_forget rfl (next ▸ start.1) optional fun p hp => line p hp ▸ later
  · refine (Reaches.of_step settled rest cut ?_).trans (.of_settle ?_ ?_)
    · change (c.skip raw.length).rest.length < c.rest.length
      rw [atEnd, size]
      simp
      omega
    · have same := settle_line (s := ⟨c.skip raw.length, .scalar isPlain t :: ts, is, false,
        (inBlock c ts is b).marked.keyPlace, []⟩) rfl atEnd start.1 optional
        fun p hp => line p hp ▸ Cursor.line_le_skip _ c
      rw [Cursor.skip_add]
      exact same
    · change (c.skip (raw.length + (i + 1))).rest.length ≤ (c.skip raw.length).rest.length
      rw [next, atEnd]
      simp

/-! ### Keys -/

theorem inBlock_openBlock (token : Token) :
    (inBlock c ts is b).openBlock token =
      if is.head?.all (· < c.column) then inBlock c (token :: ts) (c.column :: is) b
      else inBlock c ts is b := rfl

/-- The state after a token that began at a position and may be a key. -/
def afterKey (c₀ c : Cursor) (token : Token) (ts : List Token) (is : List Nat) : Cutting :=
  ⟨c, token :: ts, is, false,
    some ⟨ts.length, is.head? == some c₀.column, c₀.index, c₀.line, c₀.column⟩, []⟩

/-- The place of a key is in reach of its colon on the same line. -/
theorem settle_afterKey {c₀ : Cursor} {token : Token} (start : StartsToken c.rest)
    (line : c₀.line = c.line) (near : c.index ≤ c₀.index + 1024)
    (head : ∀ j ∈ is.head?, j ≤ c.column) :
    settle (afterKey c₀ c token ts is) = .ok (afterKey c₀ c token ts is) := by
  refine settle_token (s := afterKey c₀ c token ts is) rfl start ?_ head
  simp [afterKey, refreshKeyPlace, line, near]

/-- The colon after a key on the same line. -/
theorem value_afterKey (c₀ : Cursor) (token : Token) :
    (afterKey c₀ c token ts is).value =
      .ok (inBlock c.next (.value :: token :: .key ::
          ((inBlock c₀ ts is true).openBlock .blockMappingStart).tokens)
        ((inBlock c₀ ts is true).openBlock .blockMappingStart).indents false) := by
  have first : ∀ b k outer, emitAt ⟨c, token :: ts, is, b, k, outer⟩ ts.length .key =
      ⟨c, token :: .key :: ts, is, b, k, outer⟩ := fun b k outer =>
    emitAt_length [token] .key
  have second : ∀ b k outer, emitAt ⟨c, token :: .key :: ts, is, b, k, outer⟩ ts.length
      .blockMappingStart = ⟨c, token :: .key :: .blockMappingStart :: ts, is, b, k, outer⟩ :=
    fun b k outer => emitAt_length [token, .key] .blockMappingStart
  rw [value, inBlock_openBlock]
  dsimp only [afterKey]
  rw [first]
  dsimp only
  rw [second]
  change Except.ok (emit (moveTo (if is.head?.all (· < c₀.column) then _ else _) _) _) = _
  split <;> rfl

/-- **A key before its colon is cut**, and a mapping begins with the first of them. -/
theorem reaches_simpleKey {g : CodePoint} (spelt : IsSpelling deep raw isPlain t)
    (h : c.rest = raw ++ (':' : CodePoint) :: g :: u) (gap : isGap g = true)
    (inline : ∀ x ∈ raw, isInline x = true) (short : raw.length ≤ 1024)
    (head : ∀ j ∈ is.head?, j ≤ c.column) (indent : ∀ j ∈ is.head?, j < deep) :
    Reaches (inBlock c ts is true)
      (inBlock (c.skip (raw.length + 1))
        (.value :: .scalar isPlain t :: .key ::
          ((inBlock c ts is true).openBlock .blockMappingStart).tokens)
        ((inBlock c ts is true).openBlock .blockMappingStart).indents false) := by
  have passed := Cursor.skip_inline h inline
  have atColon : (c.skip raw.length).rest = (':' : CodePoint) :: g :: u := by rw [passed]
  have stops : Plain.Stops false (inBlock c ts is true).plainIndent (c.skip raw.length)
      (c.skip raw.length) false :=
    Plain.stops_here atColon rfl (by simp [Plain.stays, Plain.endsKey, endOr, gap])
  obtain ⟨x, v, eq, starts, after, newLine, cut, ends⟩ :=
    spelt.2 (inBlock c ts is true) _ _ false rfl isOptional_none (plainIndent_inBlock_le indent)
      (plainIndent_inBlock_le fun j hj => Nat.lt_succ_of_le (head j hj)) h
      (fun y hy => .inr (Option.some.inj hy).symm) stops
  obtain ⟨rfl, rfl⟩ : after = c.skip raw.length ∧ newLine = false := ends.elim id id
  have rest : c.rest = x :: v := h.trans eq
  have some : 0 < raw.length := List.length_pos_iff.mpr spelt.1
  have settled : settle (inBlock c ts is true) = .ok (inBlock c ts is true) :=
    settle_inBlock (rest ▸ starts) head
  have size : c.rest.length = raw.length + (u.length + 2) := by rw [h]; simp
  have cut : step x (inBlock c ts is true) =
      .ok (afterKey c (c.skip raw.length) (.scalar isPlain t) ts is) := cut.trans (by
    rw [afterScalar_eq]
    rfl)
  have start : StartsToken (c.skip raw.length).rest := by
    rw [atColon]
    rintro y ⟨⟩
    decide
  have settled' : settle (afterKey c (c.skip raw.length) (.scalar isPlain t) ts is) =
      .ok (afterKey c (c.skip raw.length) (.scalar isPlain t) ts is) := by
    refine settle_afterKey start ?_ ?_ fun j hj => ?_
    · rw [passed]
    · rw [passed]
      exact Nat.add_le_add_left short _
    · rw [passed]
      exact Nat.le_add_right_of_le (head j hj)
  have colon := (step_value (s := afterKey c (c.skip raw.length) (.scalar isPlain t) ts is) atColon
    gap).trans (value_afterKey c _)
  rw [Cursor.next_skip] at colon
  refine (Reaches.of_step settled rest cut ?_).trans (.of_step settled' atColon colon ?_)
  · change (c.skip raw.length).rest.length < c.rest.length
    rw [atColon, size]
    simp
    omega
  · change (c.skip (raw.length + 1)).rest.length < (c.skip raw.length).rest.length
    rw [← Cursor.next_skip, Cursor.rest_next, atColon]
    simp

theorem inBlock_openBlock_atPlace (token : Token) :
    (inBlock c ts is b).openBlock token =
      inBlock c ((inBlock c ts is b).openBlock token).tokens
        ((inBlock c ts is b).openBlock token).indents b := by
  rw [inBlock_openBlock]
  split <;> rfl

/-- **A question mark before a key is cut**, and a mapping begins with the first of them. -/
theorem reaches_explicitKey {g : CodePoint} (h : c.rest = ('?' : CodePoint) :: g :: u)
    (gap : isGap g = true) (head : ∀ j ∈ is.head?, j ≤ c.column) :
    Reaches (inBlock c ts is true)
      (inBlock c.next (.key :: ((inBlock c ts is true).openBlock .blockMappingStart).tokens)
        ((inBlock c ts is true).openBlock .blockMappingStart).indents true) := by
  have start : StartsToken c.rest := by
    rw [h]
    rintro y ⟨⟩
    decide
  have cut : (inBlock c ts is true).explicitKey = .ok
      (inBlock c.next (.key :: ((inBlock c ts is true).openBlock .blockMappingStart).tokens)
        ((inBlock c ts is true).openBlock .blockMappingStart).indents true) := by
    change ((inBlock c ts is true).openBlock .blockMappingStart).dropKeyPlace >>= _ = _
    rw [inBlock_openBlock_atPlace]
    rfl
  refine .of_step (settle_inBlock start head) h ((step_explicitKey h gap).trans cut) ?_
  change c.next.rest.length < c.rest.length
  rw [Cursor.rest_next, h]
  simp

/-- The colon before the value of a key that follows a question mark. -/
theorem reaches_explicitValue {g : CodePoint} (h : c.rest = (':' : CodePoint) :: g :: u)
    (gap : isGap g = true) :
    Reaches (inBlock c ts (c.column :: is) true)
      (inBlock c.next (.value :: ts) (c.column :: is) true) := by
  have start : StartsToken c.rest := by
    rw [h]
    rintro y ⟨⟩
    decide
  have cut : (inBlock c ts (c.column :: is) true).value =
      .ok (inBlock c.next (.value :: ts) (c.column :: is) true) := by
    have same : (inBlock c ts (c.column :: is) true).openBlock .blockMappingStart =
        inBlock c ts (c.column :: is) true := by
      rw [inBlock_openBlock, if_neg (by simp)]
    change Except.ok (emit (moveTo (allowKey (openBlock _ _) _) _) _) = _
    rw [same]
    rfl
  refine .of_step (settle_inBlock start fun j hj => (Option.some.inj hj).ge) h
    ((step_value h gap).trans cut) ?_
  change c.next.rest.length < c.rest.length
  rw [Cursor.rest_next, h]
  simp

/-! ### Items -/

/-- **A hyphen before an item is cut**, and a sequence begins with the first of them if it is
indented deeper than what is around it. -/
theorem reaches_blockEntry {g : CodePoint} (h : c.rest = ('-' : CodePoint) :: g :: u)
    (gap : isGap g = true) (head : ∀ j ∈ is.head?, j ≤ c.column) :
    Reaches (inBlock c ts is true)
      (inBlock c.next (.blockEntry :: ((inBlock c ts is true).openBlock .blockSequenceStart).tokens)
        ((inBlock c ts is true).openBlock .blockSequenceStart).indents true) := by
  have start : StartsToken c.rest := by
    rw [h]
    rintro y ⟨⟩
    decide
  have cut : (inBlock c ts is true).blockEntry = .ok
      (inBlock c.next (.blockEntry :: ((inBlock c ts is true).openBlock .blockSequenceStart).tokens)
        ((inBlock c ts is true).openBlock .blockSequenceStart).indents true) := by
    change ((inBlock c ts is true).openBlock .blockSequenceStart).dropKeyPlace >>= _ = _
    rw [inBlock_openBlock_atPlace]
    rfl
  refine .of_step (settle_inBlock start head) h ((step_blockEntry h gap).trans cut) ?_
  change c.next.rest.length < c.rest.length
  rw [Cursor.rest_next, h]
  simp

end Cutting

end Yaml

end RouteDocs
