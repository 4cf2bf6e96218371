import RouteDocs.Proofs.Json.Integer
import RouteDocs.Proofs.Text.Match
import RouteDocs.Proofs.Yaml.Plain
import RouteDocs.Proofs.Yaml.Tokens
import RouteDocs.Yaml.Value

/-!
# Words

The words for null, truth values and integers are plain scalars, in brackets and in blocks, and they
are recognised by their spelling.

## Main Statements

* `Yaml.isBare_word`, `Yaml.isPlain_word`: **a word means nothing else**
* `Yaml.scalarKind_ofInt`: the decimal text of an integer is recognised
* `Yaml.readInteger_ofInt`: **the integer is read from it**

## Design Notes

Every spelling of a floating-point number has a point in it, so integers are not taken for such
numbers, though these are looked for first.
-/

namespace RouteDocs

namespace Yaml

variable {t : Text} {x : CodePoint} {i : Int} {n : Nat}

/-! ### Bare Words -/

theorem isBare_of_isAsciiDigit (h : x.isAsciiDigit = true) : Plain.isBare x = true := by
  simp [Plain.isBare, h]

/-- What begins with a code point begins with nothing that begins otherwise. -/
theorem startsWith_eq_false {r p : Text} {y : CodePoint} (other : x ≠ y) :
    Text.startsWith (x :: r) (y :: p) = false := by
  change (y == x && _) = false
  rw [beq_false_of_ne other.symm, Bool.false_and]

theorem isSeparator_of_isBare (h : Plain.isBare x = true) : isSeparator x = false := by
  obtain ⟨low, high⟩ := Plain.val_of_isBare h
  have other : ∀ y : CodePoint, Plain.isBare y = false → x ≠ y := fun _ => Plain.ne_of_isBare h
  simp [isSeparator, isBreak, other ' ' rfl, other '\t' rfl, other '\r' rfl, other '\n' rfl,
    show x.val ≠ 0 by omega, show x.val ≠ 0x85 by omega, show x.val ≠ 0x2028 by omega,
    show x.val ≠ 0x2029 by omega]

theorem isLeadingIndicator_of_isBare (h : Plain.isBare x = true) :
    isLeadingIndicator x = false := by
  have other : ∀ n : Nat, (h : n < 0x110000) → Plain.isBare ⟨n, h⟩ = false →
      (x.val == n) = false := by
    intro n bound no
    rw [beq_eq_false_iff_ne]
    exact fun same => Plain.ne_of_isBare (y := ⟨n, bound⟩) h no (Fin.ext same)
  simp only [isLeadingIndicator, Text.beq_ofChar, Bool.or_eq_false_iff]
  refine ⟨⟨⟨⟨⟨⟨⟨⟨⟨⟨⟨⟨⟨⟨⟨?_, ?_⟩, ?_⟩, ?_⟩, ?_⟩, ?_⟩, ?_⟩, ?_⟩, ?_⟩, ?_⟩, ?_⟩, ?_⟩, ?_⟩, ?_⟩, ?_⟩, ?_⟩ <;>
    exact other _ (by decide) rfl

theorem hasInnerIndicator_of_isBare (bare : ∀ x ∈ t, Plain.isBare x = true) :
    hasInnerIndicator false t = false := by
  induction t with
  | nil => rfl
  | cons x t ih =>
      obtain ⟨bare_x, bare_t⟩ := List.forall_mem_cons.mp bare
      have colon : x ≠ (':' : CodePoint) := Plain.ne_of_isBare bare_x rfl
      rw [hasInnerIndicator, isSeparator_of_isBare bare_x, ih bare_t]
      simp [colon]

/-- A bare word begins with no indicator, unless it consists of a hyphen or begins with two. -/
theorem hasIndicator_of_isBare (bare : ∀ x ∈ t, Plain.isBare x = true)
    (sign : t.head? = some ('-' : CodePoint) →
      ∃ y r, t = ('-' : CodePoint) :: y :: r ∧ y ≠ ('-' : CodePoint)) :
    hasIndicator t = false := by
  cases t with
  | nil => rfl
  | cons x r =>
      obtain ⟨bare_x, bare_r⟩ := List.forall_mem_cons.mp bare
      have other : ∀ y : CodePoint, Plain.isBare y = false → x ≠ y :=
        fun _ => Plain.ne_of_isBare bare_x
      have dots : Text.startsWith (x :: r) "..." = false := startsWith_eq_false (other '.' rfl)
      rw [hasIndicator, dots, isLeadingIndicator_of_isBare bare_x, isSeparator_of_isBare bare_x,
        hasInnerIndicator_of_isBare bare_r]
      by_cases hyphen : x = ('-' : CodePoint)
      · obtain ⟨y, v, same, second⟩ := sign (congrArg some hyphen)
        obtain ⟨rfl, rfl⟩ := List.cons.inj same
        have hyphens : Text.startsWith (('-' : CodePoint) :: y :: v) "---" = false :=
          startsWith_eq_false (x := y) second
        have goes : endsHere (y :: v) = false := isSeparator_of_isBare (bare_r y List.mem_cons_self)
        rw [hyphens, goes]
        rfl
      · have hyphens : Text.startsWith (x :: r) "---" = false := startsWith_eq_false hyphen
        simp [hyphens, hyphen, other '?' rfl, other ':' rfl]

/-- **A bare word means nothing else**, unless it consists of a hyphen or begins with two. -/
theorem isPlain_of_isBare (nonempty : t ≠ []) (bare : ∀ x ∈ t, Plain.isBare x = true)
    (sign : t.head? = some ('-' : CodePoint) →
      ∃ y r, t = ('-' : CodePoint) :: y :: r ∧ y ≠ ('-' : CodePoint)) :
    Plain.IsPlain t where
  nonempty := nonempty
  printable y hy := by
    obtain ⟨low, high⟩ := Plain.val_of_isBare (bare y hy)
    simp only [isPrintable, Bool.or_eq_true, Bool.and_eq_true, decide_eq_true_eq, beq_iff_eq]
    omega
  inLine y hy := by
    have separator := isSeparator_of_isBare (bare y hy)
    simp only [isSeparator, Bool.or_eq_false_iff] at separator
    exact separator.2
  head same := Plain.ne_of_isBare (bare _ (List.mem_of_mem_head? same)) rfl rfl
  last same := Plain.ne_of_isBare (bare _ (List.mem_of_mem_getLast? same)) rfl rfl
  indicators := hasIndicator_of_isBare bare sign

/-! ### The Words of Values -/

theorem ofInt_ne_nil : Text.ofInt i ≠ [] := by
  cases i with
  | ofNat n => exact Text.ofNat_ne_nil
  | negSucc n => exact List.cons_ne_nil _ _

theorem word_null_ne_nil : word .null ≠ [] :=
  List.cons_ne_nil _ _

theorem word_bool_ne_nil (b : Bool) : word (.bool b) ≠ [] := by
  cases b <;> exact List.cons_ne_nil _ _

theorem isBare_word (v : Json) : ∀ x ∈ word v, Plain.isBare x = true := by
  cases v with
  | null => exact List.all_eq_true.mp rfl
  | bool b => cases b <;> exact List.all_eq_true.mp rfl
  | int i =>
      intro x hx
      rcases Decoder.mem_ofInt hx with digit | rfl
      · exact isBare_of_isAsciiDigit digit
      · decide
  | float | str | arr | obj => nofun

/-- **A word means nothing else.** -/
theorem isPlain_word {v : Json} (some : word v ≠ []) : Plain.IsPlain (word v) := by
  refine isPlain_of_isBare some (isBare_word v) fun sign => ?_
  cases v with
  | null => cases sign
  | bool b => cases b <;> cases sign
  | int i =>
      cases i with
      | ofNat n =>
          have digit := Text.isAsciiDigit_of_mem_ofNat (List.mem_of_mem_head? sign)
          cases digit
      | negSucc n =>
          obtain ⟨y, r, eq⟩ := List.exists_cons_of_ne_nil (Text.ofNat_ne_nil (n := n + 1))
          refine ⟨y, r, congrArg _ eq, ?_⟩
          rintro rfl
          have digit := Text.isAsciiDigit_of_mem_ofNat (c := '-') (n := n + 1) (by rw [eq]; simp)
          cases digit
  | float | str | arr | obj => exact absurd rfl some

/-! ### Words Recognised -/

/-- The code points with which integers begin. -/
def beginsInteger (x : CodePoint) : Bool := x.isAsciiDigit || x == '-'

theorem head?_ofInt (i : Int) : (Text.ofInt i).head?.any beginsInteger = true := by
  obtain ⟨x, r, eq⟩ := List.exists_cons_of_ne_nil (ofInt_ne_nil (i := i))
  rw [eq]
  change beginsInteger x = true
  rcases Decoder.mem_ofInt (i := i) (c := x) (by simp [eq]) with digit | rfl
  · simp [beginsInteger, digit]
  · rfl

/-- A word is none of those that begin otherwise. -/
theorem contains_eq_false_of_head {cls : CodePoint → Bool} {words : List Text}
    (others : words.all (fun w => !w.head?.any cls) = true) (first : t.head?.any cls = true) :
    words.contains t = false := by
  rw [Bool.eq_false_iff]
  intro mem
  have other := List.all_eq_true.mp others t (List.contains_iff_mem.mp mem)
  rw [first] at other
  cases other

/-- Every floating-point number is spelt with a point. -/
theorem needs_float : Pattern.Needs '.' float := by
  have point : Pattern.Needs '.' (.lit ['.']) := Pattern.needs_lit List.mem_cons_self
  refine .alt ?_ (.alt ?_ (.alt ?_ (.alt ?_ ?_)))
  · exact ((point.right _).left _).left _
  · exact (point.left _).left _
  · exact (point.right _).left _
  · exact (point.right _).left _
  · exact point.left _

section Covers

variable {c : RouteDocs.Cursor} {gs : Groups} {p q : Pattern}
  {k : RouteDocs.Cursor → Groups → Option Hit}

theorem isSome_alt_left (h : (p.runAt c gs k).isSome = true) :
    ((Pattern.alt p q).runAt c gs k).isSome = true := by
  obtain ⟨hit, found⟩ := Option.isSome_iff_exists.mp h
  rw [Pattern.runAt, found]
  rfl

theorem isSome_alt_right (h : (q.runAt c gs k).isSome = true) :
    ((Pattern.alt p q).runAt c gs k).isSome = true := by
  rw [Pattern.runAt]
  split
  · rfl
  · exact h

/-- A run of a class to the end. -/
theorem isSome_runFrom {cls : CodePoint → Bool} {k : RouteDocs.Cursor → Option Hit}
    (all : ∀ x ∈ t, cls x = true) (done : ∀ seen, (k ⟨seen, []⟩).isSome = true) (seen : Text) :
    (Pattern.runFrom cls k seen t).isSome = true := by
  induction t generalizing seen with
  | nil => exact done seen
  | cons x r ih =>
      obtain ⟨first, others⟩ := List.forall_mem_cons.mp all
      rw [Pattern.runFrom, if_pos first]
      have further := ih others (x :: seen)
      split
      · rfl
      · next none =>
        rw [none] at further
        cases further

/-- **The decimal digits of a number are covered.** -/
theorem isSome_decimal (n : Nat) (seen : Text)
    (done : ∀ seen gs, (k ⟨seen, []⟩ gs).isSome = true) :
    ((Pattern.alt (Pattern.lit "0") groupedDigitsNonzero).runAt ⟨seen, Text.ofNat n⟩ gs k).isSome =
      true := by
  have digits : ∀ x ∈ Text.ofNat n, x.isAsciiDigit = true := fun x =>
    Text.isAsciiDigit_of_mem_ofNat
  rcases Nat.eq_zero_or_pos n with rfl | pos
  · exact isSome_alt_left (p := Pattern.lit "0") (done ('0' :: seen) gs)
  · have nonzero := Text.head?_ofNat pos.ne'
    obtain ⟨x, r, eq⟩ := List.exists_cons_of_ne_nil (Text.ofNat_ne_nil (n := n))
    rw [eq] at nonzero digits ⊢
    have zero : x ≠ ('0' : CodePoint) := fun same => nonzero (congrArg some same)
    obtain ⟨first, others⟩ := List.forall_mem_cons.mp digits
    refine isSome_alt_right ?_
    change (if (x.isAsciiDigit && x != '0') = true then
      Pattern.runFrom isGroupedDigit (k · gs) (x :: seen) r else none).isSome = true
    rw [if_pos (by simp [first, zero])]
    exact isSome_runFrom (fun y hy => by simp [isGroupedDigit, others y hy]) (fun _ => done _ _) _

end Covers

theorem covers_integer (i : Int) : integer.covers (Text.ofInt i) = true := by
  rw [Pattern.covers, Pattern.matchAll?, Option.isSome_map]
  refine isSome_alt_right (isSome_alt_right (isSome_alt_left ?_))
  cases i with
  | ofNat n =>
      -- No sign precedes the digits.
      refine isSome_alt_right (p := Pattern.one _) ?_
      exact isSome_decimal n [] fun _ _ => rfl
  | negSucc n =>
      refine isSome_alt_left (q := Pattern.empty) ?_
      exact isSome_decimal (n + 1) ['-'] fun _ _ => rfl

/-- **The decimal text of an integer is recognised.** -/
theorem scalarKind_ofInt (i : Int) : scalarKind (Text.ofInt i) = .integer := by
  have head := head?_ofInt i
  have point : ('.' : CodePoint) ∉ Text.ofInt i := by
    intro mem
    rcases Decoder.mem_ofInt mem with digit | same
    · cases digit
    · cases same
  rw [scalarKind, contains_eq_false_of_head rfl head, contains_eq_false_of_head rfl head,
    contains_eq_false_of_head rfl head, needs_float.covers_eq_false point, covers_integer]
  rfl

/-! ### Integers Read -/

/-- Decimal digits are read as digits in base ten. -/
theorem readPlacesFrom_digits (digits : ∀ x ∈ t, x.isAsciiDigit = true) (m : Nat) :
    Text.readPlacesFrom 10 m t = some (t.foldl (fun n x => 10 * n + (x.val - 0x30)) m) := by
  induction t generalizing m with
  | nil => rfl
  | cons x r ih =>
      obtain ⟨first, others⟩ := List.forall_mem_cons.mp digits
      have range : 0x30 ≤ x.val ∧ x.val ≤ 0x39 := by
        simpa [CodePoint.isAsciiDigit] using first
      have value : Text.placeValue? x = some (x.val - 0x30) := by
        rw [Text.placeValue?, if_neg (by omega), if_neg (by omega), CodePoint.digitValue?,
          if_pos (by omega), if_pos first]
      rw [Text.readPlacesFrom, value, Option.bind_some, if_pos (by omega), ih others,
        List.foldl_cons]

theorem readIntIn?_ofNat (n : Nat) : Text.readIntIn? 10 (Text.ofNat n) = some (n : Int) := by
  have digits : ∀ x ∈ Text.ofNat n, x.isAsciiDigit = true := fun x =>
    Text.isAsciiDigit_of_mem_ofNat
  have strip : (Text.ofNat n).stripNumber = Text.ofNat n := Decoder.stripNumber_ofInt (n : Int)
  have value := Text.digitsValue_ofNat n
  obtain ⟨x, r, eq⟩ := List.exists_cons_of_ne_nil (Text.ofNat_ne_nil (n := n))
  rw [eq] at digits strip value ⊢
  obtain ⟨-, -, -, minus, plus⟩ := Decoder.digit_cases (digits x (by simp))
  have places : Text.readPlaces? 10 (x :: r) = some n := by
    have whole : Text.readPlaces? 10 (x :: r) = Text.readPlacesFrom 10 0 (x :: r) := by
      cases r <;> simp [Text.readPlaces?]
    rw [whole, readPlacesFrom_digits digits]
    exact congrArg some value
  rw [Text.readIntIn?, strip]
  simp only [beq_false_of_ne minus, beq_false_of_ne plus, Bool.false_eq_true, if_false, places]
  rfl

theorem readDigitsIn_ofNat (few : Binary64.decimalLength n ≤ Json.maxDigits) :
    readDigitsIn 10 (Text.ofNat n) = .ok (n : Int) := by
  have count : ((Text.ofNat n).filter CodePoint.isDigit).length ≤ 4300 := by
    refine (List.length_filter_le _ _).trans ?_
    rw [Text.length_ofNat]
    exact few
  simp [readDigitsIn, readIntIn?_ofNat, Nat.not_lt.mpr count]

/-- An integer is read from the digits after its sign. -/
theorem readInteger_of_takeSign {b : Bool} (noBar : ∀ x ∈ t, x ≠ ('_' : CodePoint))
    (sign : takeSign t = .ok (b, Text.ofNat n))
    (few : Binary64.decimalLength n ≤ Json.maxDigits) :
    readInteger t = .ok (if b then -(n : Int) else n) := by
  have kept : t.filter (fun x : CodePoint => x != '_') = t :=
    List.filter_eq_self.mpr fun x hx => by simpa using noBar x hx
  rw [readInteger, kept, sign]
  rcases Nat.eq_zero_or_pos n with rfl | pos
  · cases b <;> rfl
  have nonzero := Text.head?_ofNat pos.ne'
  have digits : ∀ x ∈ Text.ofNat n, x.isAsciiDigit = true := fun x =>
    Text.isAsciiDigit_of_mem_ofNat
  have one : (Text.ofNat n).splitOn ':' = [Text.ofNat n] :=
    Text.splitOn_eq_singleton fun x hx => by
      rintro rfl
      cases digits _ hx
  have read := readDigitsIn_ofNat few
  obtain ⟨x, r, eq⟩ := List.exists_cons_of_ne_nil (Text.ofNat_ne_nil (n := n))
  rw [eq] at nonzero one read ⊢
  have zero : x ≠ ('0' : CodePoint) := fun same => nonzero (congrArg some same)
  have whole : ((x :: r : Text) == "0") = false := by
    rw [beq_eq_false_iff_ne]
    exact fun same => zero (List.cons.inj same).1
  simp [bind, Except.bind, whole, zero, one, read, pure, Except.pure]

/-- **An integer is read from its decimal text.** -/
theorem readInteger_ofInt (few : Binary64.decimalLength i.natAbs ≤ Json.maxDigits) :
    readInteger (Text.ofInt i) = .ok i := by
  have noBar : ∀ x ∈ Text.ofInt i, x ≠ ('_' : CodePoint) := by
    intro x hx
    rcases Decoder.mem_ofInt hx with digit | rfl
    · exact (Decoder.digit_cases digit).2.2.1
    · decide
  cases i with
  | ofNat n =>
      refine readInteger_of_takeSign (b := false) noBar ?_ few
      obtain ⟨x, r, eq⟩ := List.exists_cons_of_ne_nil (Text.ofNat_ne_nil (n := n))
      obtain ⟨-, -, -, minus, plus⟩ :=
        Decoder.digit_cases (Text.isAsciiDigit_of_mem_ofNat (n := n) (c := x) (by simp [eq]))
      simp [Text.ofInt, eq, takeSign, minus, plus]
  | negSucc n => exact readInteger_of_takeSign (b := true) noBar rfl few

end Yaml

end RouteDocs
