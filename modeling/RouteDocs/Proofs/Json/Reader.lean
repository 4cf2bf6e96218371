import Mathlib.Tactic.SplitIfs
import RouteDocs.Proofs.Json.Fits

/-!
# What Readers Give

Everything that is read from a text is within the limits of the reader.

## Main Definitions

* `Json.ValueStep`, `Json.ItemsStep`, `Json.MembersStep`: the ways in which the reader comes to a
  value, to items and to members
* `Json.Dialect.Within`: one reader allows no more than another

## Main Statements

* `Json.readValue_succ_eq_ok_iff`, `Json.readItems_succ_eq_ok_iff`,
  `Json.readMembers_succ_eq_ok_iff`: **what is read is read in one of these ways**
* `Json.fits_readAtom`: words and numbers are within the limits
* `Json.fits_reads`: what a reader gives in any number of steps, for values, items and members
* `Json.fits_of_read`: a value that is read is within the limits of its reader
* `Json.read_mono`: a reader with wider limits gives the same value

## Design Notes

The three functions of the reader are treated together, by induction on the number of steps that
they count down. What they do in one step is said once, by a relation with a constructor for each
way to succeed; everything else is a case for each constructor.
-/

namespace RouteDocs

namespace Json

variable {dialect : Dialect} {texts : Text → Prop} {room : Nat} {v : Json} {t r : Text}

/-! ### Values without Parts -/

theorem digitsValue_lt {ds : Text} (digits : ∀ c ∈ ds, c.isAsciiDigit = true) :
    digitsValue ds < 10 ^ ds.length := by
  induction ds using List.reverseRecOn with
  | nil => simp [digitsValue]
  | append_singleton ds c ih =>
      have before := ih fun d hd => digits d (List.mem_append_left _ hd)
      have digit := digits c (by simp)
      simp only [CodePoint.isAsciiDigit, Bool.and_eq_true, decide_eq_true_eq] at digit
      have step : digitsValue (ds ++ [c]) = 10 * digitsValue ds + (c.val - 0x30) := by
        simp [digitsValue]
      rw [step, List.length_append, List.length_singleton, Nat.pow_succ]
      omega

theorem isAsciiDigit_of_mem_takeWhole :
    ∀ c ∈ (takeWhole t).1, c.isAsciiDigit = true := by
  intro c hc
  unfold takeWhole at hc
  split at hc
  · split at hc
    · next zero =>
      rw [List.mem_singleton.mp hc, eq_of_beq zero]
      rfl
    · exact List.all_eq_true.mp List.all_takeWhile c hc
  · cases hc

theorem takeWhole_length_pos (begins : t.head?.any CodePoint.isAsciiDigit = true) :
    0 < (takeWhole t).1.length := by
  cases t with
  | nil => cases begins
  | cons c r =>
      have digit : c.isAsciiDigit = true := begins
      unfold takeWhole
      dsimp only
      split
      · exact Nat.zero_lt_one
      · rw [List.takeWhile_cons_of_pos digit]
        exact Nat.zero_lt_succ _

/-- A number is within the limit on integers or is a floating-point number of the format. -/
theorem fits_readNumber {negative : Bool} (begins : t.head?.any CodePoint.isAsciiDigit = true)
    (h : readNumber dialect negative t = .ok (v, r)) :
    Fits dialect.Takes texts Binary64.IsCanonical room v := by
  unfold readNumber at h
  dsimp only at h
  split at h
  · cases h
  next many =>
  split at h
  · next integer =>
    cases h
    rw [integer] at many
    have few := digitsValue_lt (isAsciiDigit_of_mem_takeWhole (t := t))
    have length : Binary64.decimalLength (digitsValue (takeWhole t).1) ≤ (takeWhole t).1.length :=
      (Nat.length_toDigits_le_iff (by decide) (takeWhole_length_pos begins)).mpr few
    -- Only what has a sign is negative, so that the value is counted no longer than its text.
    refine .int (le_trans (Dialect.counted_mono ?_ ?_) (Nat.le_of_not_lt many))
    · cases negative <;> simpa using length
    · cases negative <;> simp
  · cases h
    exact .float (Binary64.isCanonical_ofDecimal _ _ _)

/-- Words and numbers are within the limits. -/
theorem fits_readAtom (h : readAtom dialect t = .ok (v, r)) :
    Fits dialect.Takes texts Binary64.IsCanonical room v := by
  unfold readAtom at h
  dsimp only at h
  split_ifs at h
  · cases h; exact .null
  · cases h; exact .bool _
  · cases h; exact .bool _
  · cases h; exact .float trivial
  · cases h; exact .float trivial
  · cases h; exact .float trivial
  · split at h
    · split_ifs at h with minus digit digit
      · exact fits_readNumber digit h
      · refine fits_readNumber ?_ h
        exact digit
    · cases h

/-! ### Texts -/

/-- A quoted text has no surrogates unless the reader lets them be. -/
theorem scalar_of_readQuoted {opening s : Text}
    (h : readQuoted dialect opening t = .ok (s, r)) (strict : dialect.rules.loneSurrogates = false) :
    s.isScalar = true := by
  unfold readQuoted at h
  split at h
  · cases h
  · dsimp only at h
    split_ifs at h with scalar
    cases h
    simpa [strict] using scalar

theorem map_eq_ok {ε α β : Type} {f : α → β} {x : Except ε α} {b : β} :
    x.map f = .ok b ↔ ∃ a, x = .ok a ∧ f a = b := by
  cases x <;> simp [Except.map]

/-- The texts that a reader gives. -/
def Dialect.Gives (dialect : Dialect) (t : Text) : Prop :=
  dialect.rules.loneSurrogates = false → t.isScalar = true

/-! ### Single Steps -/

section

variable {fuel depth : Nat} {vs : List Json} {ms : List (Text × Json)}

/-- How a value is read, by what is read of its parts in the steps that are left. -/
inductive ValueStep (dialect : Dialect) (fuel depth : Nat) : Text → Json → Text → Prop
  /-- A quoted text. -/
  | text {r s rest : Text} (quoted : readQuoted dialect (doubleQuote :: r) r = .ok (s, rest)) :
      ValueStep dialect fuel depth (doubleQuote :: r) (.str s) rest
  /-- A list of nothing. -/
  | emptyArr {r rest : Text} (shallow : depth < dialect.maxDepth)
      (close : skipSpace r = (']' : CodePoint) :: rest) :
      ValueStep dialect fuel depth ('[' :: r) (.arr []) rest
  /-- A list of items. -/
  | arr {r s rest : Text} {c : CodePoint} {vs : List Json} (shallow : depth < dialect.maxDepth)
      (begins : skipSpace r = c :: s) (other : c ≠ (']' : CodePoint))
      (items : readItems dialect fuel (depth + 1) (c :: s) = .ok (vs, rest)) :
      ValueStep dialect fuel depth ('[' :: r) (.arr vs) rest
  /-- An object of nothing. -/
  | emptyObj {r rest : Text} (shallow : depth < dialect.maxDepth)
      (close : skipSpace r = ('\x7d' : CodePoint) :: rest) :
      ValueStep dialect fuel depth ('\x7b' :: r) (.obj []) rest
  /-- An object of members. -/
  | obj {r s rest : Text} {c : CodePoint} {ms : List (Text × Json)}
      (shallow : depth < dialect.maxDepth) (begins : skipSpace r = c :: s)
      (other : c ≠ ('\x7d' : CodePoint))
      (members : readMembers dialect fuel (depth + 1) (c :: s) = .ok (ms, rest)) :
      ValueStep dialect fuel depth ('\x7b' :: r) (.obj (Assoc.ofList ms)) rest
  /-- A value without parts. -/
  | atom {c : CodePoint} {r rest : Text} {v : Json} (noText : c ≠ doubleQuote)
      (noArr : c ≠ ('[' : CodePoint)) (noObj : c ≠ ('\x7b' : CodePoint))
      (read : readAtom dialect (c :: r) = .ok (v, rest)) : ValueStep dialect fuel depth (c :: r) v rest

/-- How items are read up to the closing bracket. -/
inductive ItemsStep (dialect : Dialect) (fuel depth : Nat) : Text → List Json → Text → Prop
  /-- The last item. -/
  | last {t r rest : Text} {v : Json} (first : readValue dialect fuel depth t = .ok (v, r))
      (close : skipSpace r = (']' : CodePoint) :: rest) : ItemsStep dialect fuel depth t [v] rest
  /-- An item and those after it. -/
  | more {t r s rest : Text} {v : Json} {vs : List Json}
      (first : readValue dialect fuel depth t = .ok (v, r))
      (comma : skipSpace r = (',' : CodePoint) :: s)
      (others : readItems dialect fuel depth (skipSpace s) = .ok (vs, rest)) :
      ItemsStep dialect fuel depth t (v :: vs) rest

/-- How members are read up to the closing bracket. -/
inductive MembersStep (dialect : Dialect) (fuel depth : Nat) :
    Text → List (Text × Json) → Text → Prop
  /-- The last member. -/
  | last {t key k s r rest : Text} {v : Json}
      (quoted : readQuoted dialect (doubleQuote :: t) t = .ok (key, k))
      (colon : skipSpace k = (':' : CodePoint) :: s)
      (first : readValue dialect fuel depth (skipSpace s) = .ok (v, r))
      (close : skipSpace r = ('\x7d' : CodePoint) :: rest) :
      MembersStep dialect fuel depth (doubleQuote :: t) [(key, v)] rest
  /-- A member and those after it. -/
  | more {t key k s r s' rest : Text} {v : Json} {ms : List (Text × Json)}
      (quoted : readQuoted dialect (doubleQuote :: t) t = .ok (key, k))
      (colon : skipSpace k = (':' : CodePoint) :: s)
      (first : readValue dialect fuel depth (skipSpace s) = .ok (v, r))
      (comma : skipSpace r = (',' : CodePoint) :: s')
      (others : readMembers dialect fuel depth (skipSpace s') = .ok (ms, rest)) :
      MembersStep dialect fuel depth (doubleQuote :: t) ((key, v) :: ms) rest

theorem ValueStep.of_readValue (h : readValue dialect (fuel + 1) depth t = .ok (v, r)) :
    ValueStep dialect fuel depth t v r := by
  unfold readValue at h
  split at h
  · cases h
  next c s =>
  split at h
  · next quote =>
    obtain rfl : c = doubleQuote := Fin.ext (eq_of_beq quote)
    obtain ⟨⟨u, rest⟩, quoted, eq⟩ := map_eq_ok.mp h
    cases eq
    exact .text quoted
  next noText =>
  split at h
  · next bracket =>
    obtain rfl := eq_of_beq bracket
    split at h
    · cases h
    next deep =>
    have shallow := Nat.lt_of_not_le deep
    split at h
    · cases h
    next d s begins =>
    split at h
    · next close =>
      obtain rfl := eq_of_beq close
      cases h
      exact .emptyArr shallow begins
    · next other =>
      obtain ⟨⟨vs, rest⟩, items, eq⟩ := map_eq_ok.mp h
      cases eq
      exact .arr shallow begins (by simpa using other) items
  next noArr =>
  split at h
  · next brace =>
    obtain rfl : c = '\x7b' := Fin.ext (eq_of_beq brace)
    split at h
    · cases h
    next deep =>
    have shallow := Nat.lt_of_not_le deep
    split at h
    · cases h
    next d s begins =>
    split at h
    · next close =>
      obtain rfl : d = '\x7d' := Fin.ext (eq_of_beq close)
      cases h
      exact .emptyObj shallow begins
    · next other =>
      obtain ⟨⟨ms, rest⟩, members, eq⟩ := map_eq_ok.mp h
      cases eq
      exact .obj shallow begins (by rintro rfl; exact other rfl) members
  · next noObj =>
    exact .atom (by rintro rfl; exact noText rfl) (by simpa using noArr)
      (by rintro rfl; exact noObj rfl) h

theorem ValueStep.readValue_eq (h : ValueStep dialect fuel depth t v r) :
    readValue dialect (fuel + 1) depth t = .ok (v, r) := by
  have brace : (('\x7b' : CodePoint) == '[') = false := by decide
  cases h with
  | text quoted =>
      rw [readValue, if_pos (by rfl), quoted]
      rfl
  | emptyArr shallow close =>
      rw [readValue, if_neg (by decide), if_pos (by rfl), if_neg (Nat.not_le.mpr shallow), close]
      rfl
  | arr shallow begins other items =>
      rw [readValue, if_neg (by decide), if_pos (by rfl), if_neg (Nat.not_le.mpr shallow), begins]
      dsimp only
      rw [if_neg (by simpa using other), items]
      rfl
  | emptyObj shallow close =>
      rw [readValue, if_neg (by decide), brace, if_neg (by simp), if_pos (by rfl),
        if_neg (Nat.not_le.mpr shallow), close]
      rfl
  | @obj r s rest c ms shallow begins other members =>
      have notClosed : (c.val == 0x7D) = false :=
        beq_eq_false_iff_ne.mpr fun same => other (Fin.ext same)
      rw [readValue, if_neg (by decide), brace, if_neg (by simp), if_pos (by rfl),
        if_neg (Nat.not_le.mpr shallow), begins]
      dsimp only
      rw [notClosed, members]
      rfl
  | @atom c r rest v noText noArr noObj read =>
      have quote : (c.val == 0x22) = false :=
        beq_eq_false_iff_ne.mpr fun same => noText (Fin.ext same)
      have brace : (c.val == 0x7B) = false :=
        beq_eq_false_iff_ne.mpr fun same => noObj (Fin.ext same)
      rw [readValue, quote, beq_false_of_ne noArr, brace]
      exact read

/-- **A value is read in one of these ways**, and in no other. -/
theorem readValue_succ_eq_ok_iff :
    readValue dialect (fuel + 1) depth t = .ok (v, r) ↔ ValueStep dialect fuel depth t v r :=
  ⟨.of_readValue, ValueStep.readValue_eq⟩

theorem ItemsStep.of_readItems (h : readItems dialect (fuel + 1) depth t = .ok (vs, r)) :
    ItemsStep dialect fuel depth t vs r := by
  unfold readItems at h
  split at h
  · cases h
  next v rest first =>
  split at h
  · cases h
  next d s behind =>
  split at h
  · next close =>
    obtain rfl := eq_of_beq close
    cases h
    exact .last first behind
  split at h
  · next comma =>
    obtain rfl := eq_of_beq comma
    obtain ⟨⟨vs, rest⟩, others, eq⟩ := map_eq_ok.mp h
    cases eq
    exact .more first behind others
  · cases h

theorem ItemsStep.readItems_eq (h : ItemsStep dialect fuel depth t vs r) :
    readItems dialect (fuel + 1) depth t = .ok (vs, r) := by
  have other : ((',' : CodePoint) == ']') = false := by decide
  cases h with
  | last first close =>
      rw [readItems, first]
      simp only [close, beq_self_eq_true, if_true]
  | more first comma others =>
      rw [readItems, first]
      simp only [comma, other, beq_self_eq_true, if_true, Bool.false_eq_true, if_false, others]
      rfl

/-- **Items are read in one of these ways**, and in no other. -/
theorem readItems_succ_eq_ok_iff :
    readItems dialect (fuel + 1) depth t = .ok (vs, r) ↔ ItemsStep dialect fuel depth t vs r :=
  ⟨.of_readItems, ItemsStep.readItems_eq⟩

theorem MembersStep.of_readMembers (h : readMembers dialect (fuel + 1) depth t = .ok (ms, r)) :
    MembersStep dialect fuel depth t ms r := by
  unfold readMembers at h
  split at h
  · cases h
  next c t =>
  split at h
  · cases h
  next quote =>
  obtain rfl : c = doubleQuote := Fin.ext (show c.val = 0x22 by simpa using quote)
  split at h
  · cases h
  next key k quoted =>
  split at h
  · cases h
  next d s sign =>
  split at h
  · cases h
  next colon =>
  obtain rfl : d = ':' := by simpa using colon
  split at h
  · cases h
  next v rest first =>
  split at h
  · cases h
  next d s behind =>
  split at h
  · next close =>
    obtain rfl : d = '\x7d' := Fin.ext (eq_of_beq close)
    cases h
    exact .last quoted sign first behind
  split at h
  · next comma =>
    obtain rfl := eq_of_beq comma
    obtain ⟨⟨ms, rest⟩, others, eq⟩ := map_eq_ok.mp h
    cases eq
    exact .more quoted sign first behind others
  · cases h

theorem MembersStep.readMembers_eq (h : MembersStep dialect fuel depth t ms r) :
    readMembers dialect (fuel + 1) depth t = .ok (ms, r) := by
  have mark : (doubleQuote.val != 0x22) = false := rfl
  have brace : (('\x7d' : CodePoint).val == 0x7D) = true := rfl
  have other : ((',' : CodePoint).val == 0x7D) = false := rfl
  cases h with
  | last quoted colon first close =>
      rw [readMembers]
      simp only [mark, quoted, colon, bne_self_eq_false, Bool.false_eq_true, if_false, first,
        close, brace, if_true]
  | more quoted colon first comma others =>
      rw [readMembers]
      simp only [mark, quoted, colon, bne_self_eq_false, Bool.false_eq_true, if_false, first,
        comma, other, beq_self_eq_true, if_true, others]
      rfl

/-- **Members are read in one of these ways**, and in no other. -/
theorem readMembers_succ_eq_ok_iff :
    readMembers dialect (fuel + 1) depth t = .ok (ms, r) ↔
      MembersStep dialect fuel depth t ms r :=
  ⟨.of_readMembers, MembersStep.readMembers_eq⟩

/-! ### Values with Parts -/

/-- What a value consists of is read by the other two functions, with one more bracket open. -/
theorem fits_readValue_succ
    (items : depth < dialect.maxDepth → ∀ t vs r,
      readItems dialect fuel (depth + 1) t = .ok (vs, r) → ∀ v ∈ vs,
        Fits dialect.Takes dialect.Gives Binary64.IsCanonical (dialect.maxDepth - (depth + 1)) v)
    (members : depth < dialect.maxDepth → ∀ t ms r,
      readMembers dialect fuel (depth + 1) t = .ok (ms, r) → ∀ p ∈ ms, dialect.Gives p.1 ∧
        Fits dialect.Takes dialect.Gives Binary64.IsCanonical (dialect.maxDepth - (depth + 1)) p.2)
    (h : readValue dialect (fuel + 1) depth t = .ok (v, r)) :
    Fits dialect.Takes dialect.Gives Binary64.IsCanonical (dialect.maxDepth - depth) v := by
  have room (shallow : depth < dialect.maxDepth) :
      dialect.maxDepth - depth = dialect.maxDepth - (depth + 1) + 1 := by omega
  cases readValue_succ_eq_ok_iff.mp h with
  | text quoted => exact .str (scalar_of_readQuoted quoted)
  | emptyArr shallow =>
      rw [room shallow]
      exact .arr (List.forall_mem_nil _)
  | arr shallow _ _ read =>
      rw [room shallow]
      exact .arr (items shallow _ _ _ read)
  | emptyObj shallow =>
      rw [room shallow]
      exact .obj List.nodup_nil (List.forall_mem_nil _) (List.forall_mem_nil _)
  | obj shallow _ _ read =>
      rw [room shallow]
      -- A key that is read twice keeps its first place, so that the map has each key once.
      have fits := members shallow _ _ _ read
      exact .obj (Assoc.nodup_ofList _) (fun p hp => (fits p (Assoc.mem_ofList hp)).1)
        fun p hp => (fits p (Assoc.mem_ofList hp)).2
  | atom _ _ _ read => exact fits_readAtom read

/-- An item is read as a value, and then the items after it. -/
theorem forall_mem_of_readItems_succ {P : Json → Prop}
    (value : ∀ t v r, readValue dialect fuel depth t = .ok (v, r) → P v)
    (items : ∀ t vs r, readItems dialect fuel depth t = .ok (vs, r) → ∀ v ∈ vs, P v)
    (h : readItems dialect (fuel + 1) depth t = .ok (vs, r)) : ∀ v ∈ vs, P v := by
  cases readItems_succ_eq_ok_iff.mp h with
  | last first => exact List.forall_mem_singleton.mpr (value _ _ _ first)
  | more first _ others =>
      exact List.forall_mem_cons.mpr ⟨value _ _ _ first, items _ _ _ others⟩

/-- A key and a value are read, and then the members after them. -/
theorem forall_mem_of_readMembers_succ {P : Json → Prop}
    (value : ∀ t v r, readValue dialect fuel depth t = .ok (v, r) → P v)
    (members : ∀ t ms r, readMembers dialect fuel depth t = .ok (ms, r) →
      ∀ p ∈ ms, dialect.Gives p.1 ∧ P p.2)
    (h : readMembers dialect (fuel + 1) depth t = .ok (ms, r)) :
    ∀ p ∈ ms, dialect.Gives p.1 ∧ P p.2 := by
  cases readMembers_succ_eq_ok_iff.mp h with
  | last quoted _ first =>
      exact List.forall_mem_singleton.mpr ⟨scalar_of_readQuoted quoted, value _ _ _ first⟩
  | more quoted _ first _ others =>
      exact List.forall_mem_cons.mpr
        ⟨⟨scalar_of_readQuoted quoted, value _ _ _ first⟩, members _ _ _ others⟩

end

/-- **Any number of steps of a reader stays within the limits**, for values, items and members. -/
theorem fits_reads (dialect : Dialect) (fuel depth : Nat) (le : depth ≤ dialect.maxDepth) :
    (∀ t v r, readValue dialect fuel depth t = .ok (v, r) →
      Fits dialect.Takes dialect.Gives Binary64.IsCanonical (dialect.maxDepth - depth) v) ∧
    (∀ t vs r, readItems dialect fuel depth t = .ok (vs, r) → ∀ v ∈ vs,
      Fits dialect.Takes dialect.Gives Binary64.IsCanonical (dialect.maxDepth - depth) v) ∧
    (∀ t ms r, readMembers dialect fuel depth t = .ok (ms, r) → ∀ p ∈ ms,
      dialect.Gives p.1 ∧
        Fits dialect.Takes dialect.Gives Binary64.IsCanonical (dialect.maxDepth - depth) p.2) := by
  induction fuel generalizing depth with
  | zero => simp [readValue, readItems, readMembers]
  | succ fuel ih =>
      obtain ⟨value, items, members⟩ := ih depth le
      refine ⟨fun t v r h => ?_, fun t vs r h => ?_, fun t ms r h => ?_⟩
      · exact fits_readValue_succ (fun room => (ih _ room).2.1) (fun room => (ih _ room).2.2) h
      · exact forall_mem_of_readItems_succ value items h
      · exact forall_mem_of_readMembers_succ value members h

/-- **What is read is within the limits of its reader.** -/
theorem fits_of_read {dialect : Dialect} (h : read dialect t = .ok v) :
    Fits dialect.Takes dialect.Gives Binary64.IsCanonical dialect.maxDepth v := by
  unfold read at h
  split at h
  · cases h
  next u rest part =>
  split at h
  · cases h
    unfold readPart at part
    split at part
    · cases part
    · exact (fits_reads dialect _ 0 (Nat.zero_le _)).1 _ _ _ part
  · cases h

/-! ### Wider Limits -/

/-- What one reader allows another one allows too, where both treat texts and signs alike. -/
structure Dialect.Within (few many : Dialect) : Prop where
  /-- Brackets may be nested as deep. -/
  depth : few.maxDepth ≤ many.maxDepth
  /-- Numbers may be as long. -/
  length : few.rules.maxLength ≤ many.rules.maxLength
  /-- Numbers are counted in the same way. -/
  counts : few.rules.countsCharacters = many.rules.countsCharacters
  /-- Surrogates are treated in the same way. -/
  surrogates : few.rules.loneSurrogates = many.rules.loneSurrogates

section

variable {few many : Dialect} {fuel depth : Nat} {vs : List Json} {ms : List (Text × Json)}
  {opening s : Text}

namespace Dialect.Within

theorem readNumber_mono {negative : Bool} (le : few.Within many)
    (h : readNumber few negative t = .ok (v, r)) : readNumber many negative t = .ok (v, r) := by
  have counted (isInteger : Bool) (n : Nat) :
      many.counted negative isInteger n = few.counted negative isInteger n := by
    unfold counted
    rw [le.counts]
  unfold readNumber at h ⊢
  dsimp only at h ⊢
  split at h
  · cases h
  · next within =>
    rw [counted, if_neg (Nat.not_lt.mpr ((Nat.le_of_not_lt within).trans le.length))]
    exact h

theorem readAtom_mono (le : few.Within many) (h : readAtom few t = .ok (v, r)) :
    readAtom many t = .ok (v, r) := by
  unfold readAtom at h ⊢
  dsimp only at h ⊢
  split_ifs at h ⊢
  all_goals first
    | exact h
    | split at h
      · split_ifs at h ⊢ <;> exact le.readNumber_mono h
      · cases h

theorem readQuoted_mono (le : few.Within many) (h : readQuoted few opening t = .ok (s, r)) :
    readQuoted many opening t = .ok (s, r) := by
  unfold readQuoted at h ⊢
  rwa [← le.surrogates]

end Dialect.Within

theorem ValueStep.mono (le : few.Within many)
    (items : ∀ t xs, readItems few fuel (depth + 1) t = .ok xs →
      readItems many fuel (depth + 1) t = .ok xs)
    (members : ∀ t ms, readMembers few fuel (depth + 1) t = .ok ms →
      readMembers many fuel (depth + 1) t = .ok ms)
    (h : ValueStep few fuel depth t v r) : ValueStep many fuel depth t v r := by
  cases h with
  | text quoted => exact .text (le.readQuoted_mono quoted)
  | emptyArr shallow close => exact .emptyArr (Nat.lt_of_lt_of_le shallow le.depth) close
  | arr shallow begins other read =>
      exact .arr (Nat.lt_of_lt_of_le shallow le.depth) begins other (items _ _ read)
  | emptyObj shallow close => exact .emptyObj (Nat.lt_of_lt_of_le shallow le.depth) close
  | obj shallow begins other read =>
      exact .obj (Nat.lt_of_lt_of_le shallow le.depth) begins other (members _ _ read)
  | atom noText noArr noObj read => exact .atom noText noArr noObj (le.readAtom_mono read)

theorem ItemsStep.mono
    (value : ∀ t x, readValue few fuel depth t = .ok x → readValue many fuel depth t = .ok x)
    (items : ∀ t xs, readItems few fuel depth t = .ok xs → readItems many fuel depth t = .ok xs)
    (h : ItemsStep few fuel depth t vs r) : ItemsStep many fuel depth t vs r := by
  cases h with
  | last first close => exact .last (value _ _ first) close
  | more first comma others => exact .more (value _ _ first) comma (items _ _ others)

theorem MembersStep.mono (le : few.Within many)
    (value : ∀ t x, readValue few fuel depth t = .ok x → readValue many fuel depth t = .ok x)
    (members : ∀ t ms, readMembers few fuel depth t = .ok ms →
      readMembers many fuel depth t = .ok ms)
    (h : MembersStep few fuel depth t ms r) : MembersStep many fuel depth t ms r := by
  cases h with
  | last quoted colon first close =>
      exact .last (le.readQuoted_mono quoted) colon (value _ _ first) close
  | more quoted colon first comma others =>
      exact .more (le.readQuoted_mono quoted) colon (value _ _ first) comma (members _ _ others)

/-- **Readers give the same with wider limits**, for values, items and members. -/
theorem reads_mono (le : few.Within many) (fuel depth : Nat) :
    (∀ t x, readValue few fuel depth t = .ok x → readValue many fuel depth t = .ok x) ∧
    (∀ t xs, readItems few fuel depth t = .ok xs → readItems many fuel depth t = .ok xs) ∧
    (∀ t ms, readMembers few fuel depth t = .ok ms → readMembers many fuel depth t = .ok ms) := by
  induction fuel generalizing depth with
  | zero => simp [readValue, readItems, readMembers]
  | succ fuel ih =>
      obtain ⟨value, items, members⟩ := ih depth
      obtain ⟨-, items', members'⟩ := ih (depth + 1)
      refine ⟨fun t x h => ?_, fun t xs h => ?_, fun t ms h => ?_⟩
      · exact readValue_succ_eq_ok_iff.mpr
          ((readValue_succ_eq_ok_iff.mp h).mono le items' members')
      · exact readItems_succ_eq_ok_iff.mpr ((readItems_succ_eq_ok_iff.mp h).mono value items)
      · exact readMembers_succ_eq_ok_iff.mpr
          ((readMembers_succ_eq_ok_iff.mp h).mono le value members)

/-- A text gives the same value with wider limits. -/
theorem read_mono (le : few.Within many) (h : read few t = .ok v) : read many t = .ok v := by
  unfold read at h ⊢
  split at h
  · cases h
  next u rest part =>
  have part' : readPart many t = .ok (u, rest) := by
    unfold readPart at part ⊢
    split at part
    · cases part
    · exact (reads_mono le _ _).1 _ _ part
  rw [part']
  exact h

end

end Json

end RouteDocs
