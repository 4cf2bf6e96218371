import Mathlib.Data.List.Forall2
import RouteDocs.Proofs.Yaml.Cutting

/-!
# Collections in Brackets Are Cut

Between brackets no collection of a block begins or ends, and what is open around them stays as it is.

## Main Definitions

* `Yaml.Cutting.Fades`: a place for a key that is kept or forgotten
* `Yaml.Cutting.IsFree`, `Yaml.Cutting.IsInside`: the states in which a value may begin
* `Yaml.Cutting.Passes`: the state after a closed text, from which all brackets in it are gone
* `Yaml.Cutting.EndsValue`: what follows a value between brackets

## Main Statements

* `Yaml.Cutting.exists_passes_word`, `Yaml.Cutting.exists_passes_text`: **a scalar is passed over**
* `Yaml.Cutting.exists_open`, `Yaml.Cutting.exists_close`: **brackets open and close a level**
* `Yaml.Cutting.exists_comma`, `Yaml.Cutting.exists_passes_key`: a comma and a key are passed over

## Design Notes

Whether a place for a key has been forgotten depends on how far back it is, which does not matter for
the tokens. The statements say that the place is as it was or gone, and nothing about which of both.
-/

namespace RouteDocs

namespace Yaml

namespace Cutting

variable {s s' s₁ s₂ s₃ : Cutting} {c : Cursor} {n m : Nat} {x : CodePoint} {u r raw t : Text}
  {k k' : Option KeyPlace}

/-! ### Places for Keys That Fade -/

/-- A place for a key is as it was, or it is forgotten. -/
def Fades (k k' : Option KeyPlace) : Prop := ∀ p ∈ k', p ∈ k

theorem Fades.optional (h : Fades k k') (optional : IsOptional k) : IsOptional k' :=
  fun p hp => optional p (h p hp)

theorem exists_refreshKeyPlace (optional : IsOptional k) (c : Cursor) :
    ∃ k', refreshKeyPlace c k = .ok k' ∧ Fades k k' := by
  cases k with
  | none => exact ⟨none, rfl, nofun⟩
  | some p =>
      rw [refreshKeyPlace, optional p rfl]
      split
      · exact ⟨some p, rfl, fun _ => id⟩
      · exact ⟨none, rfl, nofun⟩

theorem exists_mapM_refreshKeyPlace {outer : List (Option KeyPlace)}
    (optional : ∀ k ∈ outer, IsOptional k) (c : Cursor) :
    ∃ outer', outer.mapM (refreshKeyPlace c) = .ok outer' ∧ List.Forall₂ Fades outer outer' := by
  induction outer with
  | nil => exact ⟨[], rfl, .nil⟩
  | cons k outer ih =>
      obtain ⟨first, others⟩ := List.forall_mem_cons.mp optional
      obtain ⟨k', same, fades⟩ := exists_refreshKeyPlace first c
      obtain ⟨outer', same', fades'⟩ := ih others
      refine ⟨k' :: outer', ?_, .cons fades fades'⟩
      rw [List.mapM_cons, same, same']
      rfl

section Outer

variable {outer outer' outer'' : List (Option KeyPlace)}

theorem optional_of_fades (h : List.Forall₂ Fades outer outer')
    (optional : ∀ k ∈ outer, IsOptional k) : ∀ k ∈ outer', IsOptional k := by
  induction h with
  | nil => nofun
  | cons fades _ ih =>
      obtain ⟨first, others⟩ := List.forall_mem_cons.mp optional
      exact List.forall_mem_cons.mpr ⟨fades.optional first, ih others⟩

theorem fades_trans (h : List.Forall₂ Fades outer outer') (h' : List.Forall₂ Fades outer' outer'') :
    List.Forall₂ Fades outer outer'' := by
  induction h generalizing outer'' with
  | nil => exact h'
  | cons fades _ ih =>
      cases h' with
      | cons fades' others => exact .cons (fun p hp => fades p (fades' p hp)) (ih others)

theorem isEmpty_of_fades (h : List.Forall₂ Fades outer outer') : outer'.isEmpty = outer.isEmpty := by
  cases h <;> rfl

end Outer

/-- No colon must follow. -/
def IsFree (s : Cutting) : Prop :=
  IsOptional s.keyPlace ∧ ∀ k ∈ s.outerKeyPlaces, IsOptional k

/-- A state between brackets or deeper than the blocks that are open, if there are any. -/
def IsInside (s : Cutting) : Prop :=
  s.inFlow = true ∨ ∀ j ∈ s.indents.head?, j < s.cursor.column

/-- **Nothing ends between brackets**, and the places for keys around a level may be forgotten. -/
theorem exists_settle_of_place (start : StartsToken s.cursor.rest)
    (free : ∀ k ∈ s.outerKeyPlaces, IsOptional k) (inside : s.IsInside)
    (place : refreshKeyPlace s.cursor s.keyPlace = .ok k) :
    ∃ outer, settle s = .ok { s with keyPlace := k, outerKeyPlaces := outer } ∧
      List.Forall₂ Fades s.outerKeyPlaces outer := by
  obtain ⟨c, ts, is, b, k', outer⟩ := s
  obtain ⟨outer', same', fades'⟩ := exists_mapM_refreshKeyPlace free c
  refine ⟨outer', ?_, fades'⟩
  have same : refreshKeyPlace c k' = .ok k := place
  have same' : outer.mapM (refreshKeyPlace c) = .ok outer' := same'
  rw [settle, skipGaps_spaces (n := 0) rfl start]
  change (refreshKeyPlaces ⟨c, ts, is, b, k', outer⟩).map _ = _
  rw [refreshKeyPlaces]
  dsimp only
  rw [same, same']
  refine congrArg Except.ok ?_
  rcases inside with flow | head
  · cases fades' with
    | nil => cases flow
    | cons => rfl
  · exact closeBlocks_none_deeper (s := ⟨c, ts, is, b, k, outer'⟩) fun j hj => (head j hj).le

theorem exists_settle (start : StartsToken s.cursor.rest) (free : s.IsFree) (inside : s.IsInside) :
    ∃ k outer, settle s = .ok { s with keyPlace := k, outerKeyPlaces := outer } ∧
      Fades s.keyPlace k ∧ List.Forall₂ Fades s.outerKeyPlaces outer := by
  obtain ⟨k, place, fades⟩ := exists_refreshKeyPlace free.1 s.cursor
  obtain ⟨outer, settled, fades'⟩ := exists_settle_of_place start free.2 inside place
  exact ⟨k, outer, settled, fades, fades'⟩

/-! ### Passing over Values -/

/-- **A state is the one after some code points that were cut into some tokens**, all brackets that
were opened among them being closed. -/
structure Passes (s s' : Cutting) (n : Nat) (new : List Token) : Prop where
  /-- The position. -/
  cursor : s'.cursor = s.cursor.skip n
  /-- The tokens. -/
  tokens : s'.tokens = new.reverse ++ s.tokens
  /-- The collections in blocks. -/
  indents : s'.indents = s.indents
  /-- The place for a key at the current level. -/
  keyPlace : IsOptional s'.keyPlace
  /-- The places for keys around it. -/
  outer : List.Forall₂ Fades s.outerKeyPlaces s'.outerKeyPlaces

namespace Passes

variable {new new' : List Token}

theorem free (h : Passes s s' n new) (free : s.IsFree) : s'.IsFree :=
  ⟨h.keyPlace, optional_of_fades h.outer free.2⟩

theorem inFlow (h : Passes s s' n new) (flow : s.inFlow = true) : s'.inFlow = true := by
  unfold Cutting.inFlow at flow ⊢
  rwa [isEmpty_of_fades h.outer]

theorem trans (first : Passes s₁ s₂ n new) (second : Passes s₂ s₃ m new') :
    Passes s₁ s₃ (n + m) (new ++ new') where
  cursor := by rw [second.cursor, first.cursor, Cursor.skip_add]
  tokens := by rw [second.tokens, first.tokens, List.reverse_append, List.append_assoc]
  indents := second.indents.trans first.indents
  keyPlace := second.keyPlace
  outer := fades_trans first.outer second.outer

end Passes

/-- Between brackets, gaps are passed over. -/
theorem reaches_newLine (h : s.cursor.rest = newLine n ++ r) (start : StartsToken r)
    (flow : s.inFlow = true) : Reaches s (s.moveTo (s.cursor.skip (n + 1))) := by
  refine .of_settle (settle_newLine_inFlow h start flow) ?_
  change (s.cursor.skip (n + 1)).rest.length ≤ s.cursor.rest.length
  rw [Cursor.rest_skip, List.length_drop]
  exact Nat.sub_le _ _

theorem reaches_spaces (h : s.cursor.rest = spaces n ++ r) (start : StartsToken r) :
    Reaches s (s.moveTo (s.cursor.skip n)) := by
  refine .of_settle (settle_spaces h start) ?_
  change (s.cursor.skip n).rest.length ≤ s.cursor.rest.length
  rw [Cursor.rest_skip, List.length_drop]
  exact Nat.sub_le _ _

theorem openFlow_eq (optional : IsOptional s.keyPlace) (token : Token) :
    s.openFlow token = .ok ⟨s.cursor.next, token :: s.tokens, s.indents, true, none,
      s.marked.keyPlace :: s.outerKeyPlaces⟩ := by
  rw [openFlow, markKeyPlace_eq optional]
  refine congrArg Except.ok ?_
  change Cutting.mk s.marked.cursor.next (token :: s.marked.tokens) s.marked.indents true none
    (s.marked.keyPlace :: s.marked.outerKeyPlaces) = _
  simp only [marked_cursor, marked_tokens, marked_indents, marked_outer]

theorem closeFlow_eq {outer : List (Option KeyPlace)} (optional : IsOptional s.keyPlace)
    (around : s.outerKeyPlaces = k :: outer) (token : Token) :
    s.closeFlow token = .ok ⟨s.cursor.next, token :: s.tokens, s.indents, false, k, outer⟩ := by
  rw [closeFlow, dropKeyPlace_optional optional]
  obtain ⟨c, ts, is, b, k', outer'⟩ := s
  obtain rfl : outer' = k :: outer := around
  rfl

theorem flowEntry_eq (optional : IsOptional s.keyPlace) :
    s.flowEntry = .ok ⟨s.cursor.next, .flowEntry :: s.tokens, s.indents, true, none,
      s.outerKeyPlaces⟩ := by
  rw [flowEntry, dropKeyPlace_optional optional]
  rfl

/-! ### Scalars between Brackets -/

/-- What follows a value between brackets: a comma, or a closing bracket on the next line. -/
def EndsValue (r : Text) : Prop :=
  r.head? = some (',' : CodePoint) ∨
    ∃ n x u, r = newLine n ++ x :: u ∧ (x = (']' : CodePoint) ∨ x = ('\x7d' : CodePoint))

theorem IsInside.of_settled {outer : List (Option KeyPlace)} (inside : s.IsInside)
    (fades : List.Forall₂ Fades s.outerKeyPlaces outer) :
    IsInside { s with keyPlace := k, outerKeyPlaces := outer } := by
  refine inside.imp_left fun flow => ?_
  unfold inFlow at flow ⊢
  rwa [isEmpty_of_fades fades]

/-- What is inside need not become a key. -/
theorem IsInside.marked_optional (inside : s.IsInside) (optional : IsOptional s.keyPlace) :
    IsOptional s.marked.keyPlace := by
  unfold marked
  split
  · rintro p ⟨⟩
    rcases inside with flow | head
    · rw [flow]
      rfl
    · cases first : s.indents.head? with
      | none => exact Bool.and_false _
      | some j => simpa using fun _ => Nat.ne_of_lt (head j first)
  · exact optional

theorem length_skip_lt (h : s.cursor.rest = raw ++ r) (some : raw ≠ []) :
    (s.cursor.skip raw.length).rest.length < s.cursor.rest.length := by
  rw [Cursor.rest_skip_append h, h, List.length_append]
  have := List.length_pos_iff.mpr some
  omega

theorem startsToken_bare (some : t ≠ []) (bare : ∀ x ∈ t, Plain.isBare x = true) :
    StartsToken (t ++ r) := by
  obtain ⟨x, t, rfl⟩ := List.exists_cons_of_ne_nil some
  have bare_x := bare x (by simp)
  rintro y ⟨⟩
  refine ⟨?_, ?_, (isGap_eq_false.mp (Plain.isGap_of_isBare bare_x)).2⟩ <;>
    (rintro rfl; cases bare_x)

/-- **A bare word between brackets is passed over.** -/
theorem exists_passes_word (flow : s.inFlow = true) (free : s.IsFree) (plain : Plain.IsPlain t)
    (bare : ∀ x ∈ t, Plain.isBare x = true) (h : s.cursor.rest = t ++ r) (ends : EndsValue r) :
    ∃ s', Reaches s s' ∧ Passes s s' t.length [.scalar true t] := by
  have start : StartsToken s.cursor.rest := by
    rw [h]
    exact startsToken_bare plain.nonempty bare
  obtain ⟨k, outer, settled, fades, fades'⟩ := exists_settle start free (.inl flow)
  have optional := fades.optional free.1
  have flow' : inFlow { s with keyPlace := k, outerKeyPlaces := outer } = true := by
    unfold inFlow at flow ⊢
    rwa [isEmpty_of_fades fades']
  have optional' := IsInside.marked_optional (.inl flow') optional
  have less := length_skip_lt h plain.nonempty
  have atEnd : (s.cursor.skip t.length).rest = r := Cursor.rest_skip_append h
  rcases ends with comma | ⟨n, x, u, rfl, closing⟩
  · obtain ⟨u, rfl⟩ := List.head?_eq_some_iff.mp comma
    obtain ⟨x, v, eq, -, cut⟩ := step_bare (s := { s with keyPlace := k, outerKeyPlaces := outer })
      optional plain bare h (fun y hy => by cases hy; decide)
      (Plain.stops_here atEnd rfl (by rw [flow']; rfl))
    rw [afterScalar_eq] at cut
    exact ⟨_, .of_step settled (h.trans eq) cut less, rfl, rfl, rfl, optional', fades'⟩
  -- The word takes the line end with it, which is passed over before the bracket anyway.
  · have line : isDocumentMark (spaces n ++ x :: u) = false := by
      cases n with
      | zero => exact isDocumentMark_eq_false (by rcases closing with rfl | rfl <;> decide)
      | succ n =>
          rw [spaces_succ]
          exact isDocumentMark_eq_false (by decide)
    have starts : StartsToken (x :: u) := by
      rintro y ⟨⟩
      rcases closing with rfl | rfl <;> decide
    obtain ⟨y, v, eq, -, cut⟩ := step_bare (s := { s with keyPlace := k, outerKeyPlaces := outer })
      optional plain bare h (fun y hy => by cases hy; decide)
      (Plain.stops_newLine atEnd line (fun y hy => ⟨(starts y hy).1, (starts y hy).2.2⟩)
        (.inl (by rw [flow']; rcases closing with rfl | rfl <;> rfl)))
    rw [afterScalar_eq] at cut
    have same := settle_newLine_inFlow (s := ⟨s.cursor.skip t.length, .scalar true t :: s.tokens,
      s.indents, true, (marked { s with keyPlace := k, outerKeyPlaces := outer }).keyPlace, outer⟩)
      atEnd starts flow'
    exact ⟨_, .of_step_settle settled (h.trans eq) cut same.symm less, rfl, rfl, rfl, optional',
      fades'⟩

/-- **A quoted text between brackets is passed over.** -/
theorem exists_passes_text (flow : s.inFlow = true) (free : s.IsFree)
    (spelt : Quoted.Spells true raw t) (h : s.cursor.rest = Text.between '"' raw ++ r)
    (ends : EndsValue r) :
    ∃ s', Reaches s s' ∧ Passes s s' (Text.between '"' raw).length [.scalar false t] := by
  have start : StartsToken s.cursor.rest := by
    rw [h]
    rintro y ⟨⟩
    decide
  have single : r.head? ≠ some (Quoted.mark true) := by
    rcases ends with comma | ⟨n, x, u, rfl, -⟩
    · rw [comma]
      decide
    · exact nofun
  obtain ⟨k, outer, settled, fades, fades'⟩ := exists_settle start free (.inl flow)
  have cut := step_quoted (s := { s with keyPlace := k, outerKeyPlaces := outer })
    (fades.optional free.1) spelt h single
  rw [afterScalar_eq] at cut
  refine ⟨_, .of_step settled h cut (length_skip_lt h (by simp [Text.between])), rfl, rfl, rfl, ?_,
    fades'⟩
  exact (IsInside.of_settled (.inl flow) fades').marked_optional (fades.optional free.1)

/-! ### Collections in Brackets -/

/-- The token of an opening bracket. -/
def openingToken (isMapping : Bool) : Token :=
  if isMapping then .flowMappingStart else .flowSequenceStart

/-- The token of a closing bracket. -/
def closingToken (isMapping : Bool) : Token :=
  if isMapping then .flowMappingEnd else .flowSequenceEnd

/-- An opening bracket or brace. -/
def opening (isMapping : Bool) : CodePoint := if isMapping then '\x7b' else '['

/-- A closing bracket or brace. -/
def closing (isMapping : Bool) : CodePoint := if isMapping then '\x7d' else ']'

variable {isMapping : Bool}

theorem startsToken_opening : StartsToken (opening isMapping :: u) := by
  rintro y ⟨⟩
  cases isMapping <;> decide

theorem startsToken_closing : StartsToken (closing isMapping :: u) := by
  rintro y ⟨⟩
  cases isMapping <;> decide

/-- **A bracket opens a level** in which a key may begin. -/
theorem exists_open (free : s.IsFree) (inside : s.IsInside)
    (h : s.cursor.rest = opening isMapping :: u) :
    ∃ k outer, Reaches s ⟨s.cursor.next, openingToken isMapping :: s.tokens, s.indents, true, none,
        k :: outer⟩ ∧ IsOptional k ∧ (∀ p ∈ k, s.keyPlace = some p ∨ p.line = s.cursor.line) ∧
      List.Forall₂ Fades s.outerKeyPlaces outer := by
  have start : StartsToken s.cursor.rest := h ▸ startsToken_opening
  obtain ⟨k, outer, settled, fades, fades'⟩ := exists_settle start free inside
  have optional := fades.optional free.1
  have cut : step (opening isMapping) { s with keyPlace := k, outerKeyPlaces := outer } = _ :=
    step_flowMark h (by cases isMapping <;> rfl)
  refine ⟨(marked { s with keyPlace := k, outerKeyPlaces := outer }).keyPlace, outer,
    .of_step settled h (cut.trans ?_) ?_, (inside.of_settled fades').marked_optional optional, ?_,
    fades'⟩
  · cases isMapping with
    | true => exact openFlow_eq optional _
    | false => exact openFlow_eq optional _
  · change s.cursor.next.rest.length < s.cursor.rest.length
    rw [Cursor.rest_next, h]
    exact Nat.lt_succ_self _
  · unfold marked
    split
    · rintro p ⟨⟩
      exact .inr rfl
    · exact fun p hp => .inl (fades p hp)

/-- **A bracket closes a level**, and the place for a key is the one before the level. -/
theorem exists_close {outer : List (Option KeyPlace)} (free : s.IsFree)
    (around : s.outerKeyPlaces = k :: outer) (h : s.cursor.rest = closing isMapping :: u) :
    ∃ k' outer', Reaches s ⟨s.cursor.next, closingToken isMapping :: s.tokens, s.indents, false, k',
      outer'⟩ ∧ Fades k k' ∧ List.Forall₂ Fades outer outer' := by
  have start : StartsToken s.cursor.rest := h ▸ startsToken_closing
  have flow : s.inFlow = true := by
    unfold inFlow
    rw [around]
    rfl
  obtain ⟨k', outer', settled, fades, fades'⟩ := exists_settle start free (.inl flow)
  rw [around] at fades'
  cases fades' with
  | @cons _ k'' _ outer'' fades'' others =>
    have cut : step (closing isMapping) { s with keyPlace := k', outerKeyPlaces := k'' :: outer'' } = _ :=
      step_flowMark h (by cases isMapping <;> rfl)
    refine ⟨k'', outer'', .of_step settled h (cut.trans ?_) ?_, fades'', others⟩
    · cases isMapping with
      | true => exact closeFlow_eq (fades.optional free.1) rfl _
      | false => exact closeFlow_eq (fades.optional free.1) rfl _
    · change s.cursor.next.rest.length < s.cursor.rest.length
      rw [Cursor.rest_next, h]
      exact Nat.lt_succ_self _

/-- **A comma is passed over**, and a key may begin after it. -/
theorem exists_comma (free : s.IsFree) (flow : s.inFlow = true)
    (h : s.cursor.rest = (',' : CodePoint) :: u) :
    ∃ s', Reaches s s' ∧ Passes s s' 1 [.flowEntry] ∧ s'.mayBeKey = true := by
  have start : StartsToken s.cursor.rest := by
    rw [h]
    rintro y ⟨⟩
    decide
  obtain ⟨k, outer, settled, fades, fades'⟩ := exists_settle start free (.inl flow)
  have cut : step ',' { s with keyPlace := k, outerKeyPlaces := outer } = _ := step_flowMark h rfl
  refine ⟨_, .of_step settled h (cut.trans (flowEntry_eq (fades.optional free.1))) ?_,
    ⟨rfl, rfl, rfl, isOptional_none, fades'⟩, rfl⟩
  change s.cursor.next.rest.length < s.cursor.rest.length
  rw [Cursor.rest_next, h]
  exact Nat.lt_succ_self _

/-! ### Keys between Braces -/

/-- The colon after a key between braces. -/
theorem value_inFlow {ts : List Token} {is : List Nat} {b : Bool} {p : KeyPlace}
    {outer : List (Option KeyPlace)} (token : Token) (place : p.tokens = ts.length)
    (flow : outer.isEmpty = false) :
    value ⟨c, token :: ts, is, b, some p, outer⟩ =
      .ok ⟨c.next, .value :: token :: .key :: ts, is, false, none, outer⟩ := by
  have put := fun b k => @emitAt_length c [token] ts is b k outer .key
  have flow' : inFlow ⟨c, token :: ts, is, b, some p, outer⟩ = true := by
    rw [inFlow, flow]
    rfl
  rw [value]
  dsimp only
  rw [flow', place]
  exact congrArg (fun s => Except.ok (emit (moveTo { s with keyPlace := none, mayBeKey := false } c.next) .value)) (put b _)

/-- **A quoted key between braces is passed over** with its colon. -/
theorem exists_passes_key {g : CodePoint} (flow : s.inFlow = true) (free : s.IsFree)
    (allowed : s.mayBeKey = true) (spelt : Quoted.Spells true raw t)
    (inline : ∀ x ∈ Text.between '"' raw, isInline x = true)
    (short : (Text.between '"' raw).length ≤ 1024)
    (h : s.cursor.rest = Text.between '"' raw ++ (':' : CodePoint) :: g :: u)
    (gap : isGap g = true) :
    ∃ s', Reaches s s' ∧
      Passes s s' ((Text.between '"' raw).length + 1) [.key, .scalar false t, .value] := by
  obtain ⟨c, ts, is, b, k₀, outer₀⟩ := s
  obtain rfl : b = true := allowed
  have start : StartsToken c.rest := by
    change c.rest = _ at h
    rw [h]
    rintro y ⟨⟩
    decide
  have passed := Cursor.skip_inline h inline
  have atColon : (c.skip (Text.between '"' raw).length).rest = (':' : CodePoint) :: g :: u := by
    rw [passed]
  obtain ⟨k, outer, settled, fades, fades'⟩ := exists_settle start free (.inl flow)
  have flow' : outer.isEmpty = false :=
    (isEmpty_of_fades fades').trans (Bool.not_eq_true' _ ▸ flow)
  have cut := step_quoted (s := ⟨c, ts, is, true, k, outer⟩) (fades.optional free.1) spelt h
    fun same => absurd (Option.some.inj same) (by decide)
  have place : (marked ⟨c, ts, is, true, k, outer⟩).keyPlace =
      some ⟨ts.length, false, c.index, c.line, c.column⟩ := by
    rw [marked, if_pos rfl, inFlow, flow']
    rfl
  rw [afterScalar_eq, place] at cut
  have near : refreshKeyPlace (c.skip (Text.between '"' raw).length)
      (some ⟨ts.length, false, c.index, c.line, c.column⟩) =
        .ok (some ⟨ts.length, false, c.index, c.line, c.column⟩) := by
    rw [refreshKeyPlace, passed, if_pos (by simpa using short)]
  have start' : StartsToken (c.skip (Text.between '"' raw).length).rest := by
    rw [atColon]
    rintro y ⟨⟩
    decide
  obtain ⟨outer', settled', fades''⟩ := exists_settle_of_place
    (s := ⟨c.skip (Text.between '"' raw).length, .scalar false t :: ts, is, false,
      some ⟨ts.length, false, c.index, c.line, c.column⟩, outer⟩)
    start' (optional_of_fades fades' free.2) (.inl (by rw [inFlow, flow']; rfl)) near
  have colon := (step_value (s := ⟨c.skip (Text.between '"' raw).length, .scalar false t :: ts, is,
    false, some ⟨ts.length, false, c.index, c.line, c.column⟩, outer'⟩) atColon gap).trans
      (value_inFlow (.scalar false t) rfl ((isEmpty_of_fades fades'').trans flow'))
  refine ⟨_, (Reaches.of_step settled h cut ?_).trans (.of_step settled' atColon colon ?_), ?_, rfl,
    rfl, isOptional_none, fades_trans fades' fades''⟩
  · exact length_skip_lt (s := ⟨c, ts, is, true, k₀, outer₀⟩) h (by simp [Text.between])
  · change (c.skip (Text.between '"' raw).length).next.rest.length <
      (c.skip (Text.between '"' raw).length).rest.length
    rw [Cursor.rest_next, atColon]
    exact Nat.lt_succ_self _
  · exact Cursor.next_skip

end Cutting

end Yaml

end RouteDocs
