import Mathlib.Algebra.Order.Field.Power
import Mathlib.Data.Rat.Cast.Order
import Mathlib.Tactic.FieldSimp
import Mathlib.Tactic.Linarith
import Mathlib.Tactic.NormNum
import Mathlib.Tactic.Positivity
import Mathlib.Tactic.Ring
import RouteDocs.Number.Binary64

/-!
# Rounding to the Nearest Number

Around each positive number of the format lies the interval of the rationals that round to it. What
is computed for a quotient or a decimal from such an interval is the number that the interval
belongs to.

## Main Definitions

* `Binary64.IsCanonical`: the numbers of the format, in the form in which they are built
* `Binary64.RoundsTo`: the rationals that round to a positive number
* `Binary64.leadingExponent`: the exponent at which a quotient has 53 bits before the point

## Main Statements

* `Binary64.divNearestEven_eq`: a quotient at most a half away from a whole number is rounded to it
* `Binary64.leadingExponent_spec`: where a quotient lies between powers of two
* `Binary64.isCanonical_ofRatio`, `Binary64.isCanonical_ofDecimal`: rounding gives numbers of the
  format
* `Binary64.ofRatio_of_roundsTo`, `Binary64.ofDecimal_of_roundsTo`: **what lies in the interval of a
  number is rounded to it**

## Design Notes

The computation is in natural numbers, and the statements are in rationals: `scaleBy_div` is the
one place where the two meet. Below the mantissa `2 ^ 52` the numbers lie twice as close, so there
the interval has only half the room; a quotient from that part is scaled by the exponent before and
comes to the number by the carry.
-/

namespace RouteDocs

namespace Binary64

variable {n d m : Nat} {e : Int} {v x : ℚ} {negative : Bool}

/-- **The numbers of the format**: a finite one has a mantissa of 53 bits, or of fewer at the least
exponent. -/
def IsCanonical : Binary64 → Prop
  | finite _ m e =>
    m < 2 ^ 53 ∧ minExponent ≤ e ∧ e ≤ maxExponent ∧ (minExponent < e → 2 ^ 52 ≤ m)
  | _ => True

theorem isCanonical_zero : (finite negative 0 minExponent).IsCanonical :=
  ⟨by decide, le_rfl, by decide, fun h => absurd h (lt_irrefl _)⟩

/-! ### Rounding to a Whole Number -/

/-- The rationals at most a half away from a whole number, the ends only of an even one. -/
def IsNear (x : ℚ) (m : Nat) : Prop :=
  (m - 1 / 2 ≤ x ∧ x ≤ m + 1 / 2) ∧ (m % 2 = 1 → m - 1 / 2 < x ∧ x < m + 1 / 2)

/-- **A quotient is rounded to the whole number that it is near to.** -/
theorem divNearestEven_eq (hd : 0 < d) (near : IsNear (n / d) m) : divNearestEven n d = m := by
  have hd' : (0 : ℚ) < d := by exact_mod_cast hd
  obtain ⟨⟨low, high⟩, odd⟩ := near
  rw [le_div_iff₀ hd'] at low
  rw [div_le_iff₀ hd'] at high
  rw [lt_div_iff₀ hd', div_lt_iff₀ hd'] at odd
  have low : 2 * m * d ≤ 2 * n + d := by
    have : (2 * m * d : ℚ) ≤ 2 * n + d := by linarith
    exact_mod_cast this
  have high : 2 * n ≤ 2 * m * d + d := by
    have : (2 * n : ℚ) ≤ 2 * m * d + d := by linarith
    exact_mod_cast this
  have odd : m % 2 = 1 → 2 * m * d < 2 * n + d ∧ 2 * n < 2 * m * d + d := by
    intro one
    obtain ⟨low, high⟩ := odd one
    have low : (2 * m * d : ℚ) < 2 * n + d := by linarith
    have high : (2 * n : ℚ) < 2 * m * d + d := by linarith
    exact ⟨by exact_mod_cast low, by exact_mod_cast high⟩
  -- The quotient that is rounded down is the whole number or the one before it.
  have division := Nat.div_add_mod n d
  have remainder := Nat.mod_lt n hd
  unfold divNearestEven
  dsimp only
  generalize n / d = q at division ⊢
  generalize n % d = r at division remainder ⊢
  have product : 2 * m * d = 2 * (d * m) := by ring
  rw [product] at low high odd
  have upper : m < q + 2 := by
    refine Nat.lt_of_mul_lt_mul_left (a := d) ?_
    rw [Nat.mul_add]
    omega
  have lower : q < m + 1 := by
    refine Nat.lt_of_mul_lt_mul_left (a := d) ?_
    rw [Nat.mul_add]
    omega
  obtain rfl | rfl : m = q ∨ m = q + 1 := by omega
  · split_ifs <;> simp at * <;> omega
  · rw [Nat.mul_add] at low high odd
    split_ifs <;> simp at * <;> omega

theorem divNearestEven_le {c : Nat} (hd : 0 < d) (h : (n / d : ℚ) < c) :
    divNearestEven n d ≤ c := by
  rw [div_lt_iff₀ (by exact_mod_cast hd)] at h
  have quotient : n / d < c := (Nat.div_lt_iff_lt_mul hd).mpr (by exact_mod_cast h)
  unfold divNearestEven
  dsimp only
  split_ifs <;> omega

theorem le_divNearestEven {c : Nat} (hd : 0 < d) (h : (c : ℚ) ≤ n / d) :
    c ≤ divNearestEven n d := by
  rw [le_div_iff₀ (by exact_mod_cast hd)] at h
  have quotient : c ≤ n / d := (Nat.le_div_iff_mul_le hd).mpr (by exact_mod_cast h)
  unfold divNearestEven
  dsimp only
  split_ifs <;> omega

/-! ### Scaling -/

/-- A power with an integer exponent as a quotient of natural powers. -/
theorem zpow_eq_div (b : Nat) (hb : 0 < b) (e : Int) :
    (b : ℚ) ^ e = (b ^ e.toNat : Nat) / (b ^ (-e).toNat : Nat) := by
  have hb' : (b : ℚ) ≠ 0 := by exact_mod_cast hb.ne'
  have exponents : e = (e.toNat : Int) - ((-e).toNat : Int) := by omega
  conv_lhs => rw [exponents]
  rw [zpow_sub₀ hb', zpow_natCast, zpow_natCast]
  push_cast
  rfl

theorem scaleBy_pos (hd : 0 < d) (n : Nat) (e : Int) : 0 < (scaleBy n d e).2 := by
  unfold scaleBy
  split
  · exact hd
  · exact Nat.mul_pos hd (Nat.pow_pos (by decide))

/-- **Scaling divides by a power of two.** -/
theorem scaleBy_div (n d : Nat) (e : Int) :
    ((scaleBy n d e).1 / (scaleBy n d e).2 : ℚ) = n / d / 2 ^ e := by
  have power := zpow_eq_div 2 (by decide) e
  rw [Nat.cast_ofNat] at power
  rw [power]
  unfold scaleBy
  simp only [Nat.pow_eq]
  split
  · next neg =>
    rw [show e.toNat = 0 by omega]
    push_cast
    field_simp
  · next nonneg =>
    rw [show (-e).toNat = 0 by omega]
    push_cast
    field_simp

/-! ### The Exponent -/

/-- The exponent at which a quotient has 53 bits before the point. -/
def leadingExponent (n d : Nat) : Int :=
  let guess : Int := (Nat.log2 n : Int) - Nat.log2 d - 52
  if (scaleBy n d guess).1 / (scaleBy n d guess).2 < 2 ^ 52 then guess - 1 else guess

theorem two_zpow_pos (e : Int) : (0 : ℚ) < 2 ^ e :=
  zpow_pos (by norm_num) e

theorem two_zpow_add (a e : Int) : (2 : ℚ) ^ (a + e) = 2 ^ a * 2 ^ e :=
  zpow_add₀ (by norm_num) a e

/-- A natural number lies between two powers of two. -/
theorem log2_bounds (hn : 0 < n) :
    (2 : ℚ) ^ (Nat.log2 n : Int) ≤ n ∧ (n : ℚ) < 2 ^ ((Nat.log2 n : Int) + 1) := by
  constructor
  · rw [zpow_natCast]
    exact_mod_cast Nat.log2_self_le hn.ne'
  · rw [← Nat.cast_add_one, zpow_natCast]
    exact_mod_cast Nat.lt_log2_self

/-- **A quotient lies between two powers of two.** -/
theorem leadingExponent_spec (hn : 0 < n) (hd : 0 < d) :
    (2 : ℚ) ^ (52 + leadingExponent n d) ≤ n / d ∧
      (n / d : ℚ) < 2 ^ (53 + leadingExponent n d) := by
  have hd' : (0 : ℚ) < d := by exact_mod_cast hd
  obtain ⟨lowN, highN⟩ := log2_bounds hn
  obtain ⟨lowD, highD⟩ := log2_bounds hd
  unfold leadingExponent
  dsimp only
  generalize guessed : (Nat.log2 n : Int) - Nat.log2 d - 52 = guess
  have above : (n / d : ℚ) < 2 ^ (53 + guess) := by
    rw [div_lt_iff₀ hd']
    calc (n : ℚ) < 2 ^ ((Nat.log2 n : Int) + 1) := highN
      _ = 2 ^ (53 + guess) * 2 ^ (Nat.log2 d : Int) := by
          rw [← two_zpow_add]
          congr 1
          omega
      _ ≤ 2 ^ (53 + guess) * d := mul_le_mul_of_nonneg_left lowD (two_zpow_pos _).le
  have below : (2 : ℚ) ^ (51 + guess) ≤ n / d := by
    rw [le_div_iff₀ hd']
    calc (2 : ℚ) ^ (51 + guess) * d ≤ 2 ^ (51 + guess) * 2 ^ ((Nat.log2 d : Int) + 1) :=
          mul_le_mul_of_nonneg_left highD.le (two_zpow_pos _).le
      _ = 2 ^ (Nat.log2 n : Int) := by
          rw [← two_zpow_add]
          congr 1
          omega
      _ ≤ n := lowN
  -- The first guess is one too great if the quotient has fewer bits than the number divided.
  have small : (scaleBy n d guess).1 / (scaleBy n d guess).2 < 2 ^ 52 ↔
      (n / d : ℚ) < 2 ^ (52 + guess) := by
    have pos := scaleBy_pos hd n guess
    have pos' : (0 : ℚ) < (scaleBy n d guess).2 := by exact_mod_cast pos
    rw [Nat.div_lt_iff_lt_mul pos, two_zpow_add, ← div_lt_iff₀ (two_zpow_pos _), ← scaleBy_div,
      div_lt_iff₀ pos']
    norm_cast
  split
  · next less =>
    rw [show 52 + (guess - 1) = 51 + guess by ring, show 53 + (guess - 1) = 52 + guess by ring]
    exact ⟨below, small.mp less⟩
  · next enough =>
    exact ⟨not_lt.mp (mt small.mpr enough), above⟩

/-! ### Rounding a Quotient -/

/-- A mantissa of `2 ^ 53` is carried into the exponent, and what is too great becomes infinite. -/
def carried (negative : Bool) (m : Nat) (e : Int) : Binary64 :=
  let (m, e) := if m == 2 ^ 53 then (2 ^ 52, e + 1) else (m, e)
  if maxExponent < e then infinite negative else finite negative m e

theorem carried_of_full (le : e + 1 ≤ maxExponent) :
    carried negative (2 ^ 53) e = finite negative (2 ^ 52) (e + 1) := by
  unfold carried
  rw [if_pos (beq_self_eq_true _)]
  exact if_neg (not_lt.mpr le)

theorem carried_of_ne (other : m ≠ 2 ^ 53) (le : e ≤ maxExponent) :
    carried negative m e = finite negative m e := by
  unfold carried
  rw [if_neg (by simpa using other)]
  exact if_neg (not_lt.mpr le)

theorem ofRatio_eq (negative : Bool) (hn : 0 < n) {e : Int}
    (exponent : max (leadingExponent n d) minExponent = e) :
    ofRatio negative n d =
      carried negative (divNearestEven (scaleBy n d e).1 (scaleBy n d e).2) e := by
  have nonzero : (n == 0) = false := beq_eq_false_iff_ne.mpr hn.ne'
  unfold ofRatio
  rw [nonzero]
  subst exponent
  rfl

/-- **Rounding a quotient gives a number of the format.** -/
theorem isCanonical_ofRatio (negative : Bool) (n : Nat) (hd : 0 < d) :
    (ofRatio negative n d).IsCanonical := by
  rcases Nat.eq_zero_or_pos n with rfl | hn
  · exact isCanonical_zero
  obtain ⟨low, high⟩ := leadingExponent_spec hn hd
  rw [ofRatio_eq negative hn rfl]
  generalize exponent : max (leadingExponent n d) minExponent = e
  generalize leadingExponent n d = first at low high exponent
  have pos := scaleBy_pos hd n e
  have room : first ≤ e := exponent ▸ le_max_left _ _
  have atMost : divNearestEven (scaleBy n d e).1 (scaleBy n d e).2 ≤ 2 ^ 53 := by
    refine divNearestEven_le pos ?_
    rw [scaleBy_div, div_lt_iff₀ (two_zpow_pos _)]
    calc (n / d : ℚ) < 2 ^ (53 + first) := high
      _ ≤ 2 ^ (53 + e) := zpow_le_zpow_right₀ (by norm_num) (by omega)
      _ = _ := by rw [two_zpow_add]; norm_num
  have atLeast : minExponent < e →
      2 ^ 52 ≤ divNearestEven (scaleBy n d e).1 (scaleBy n d e).2 := by
    intro beyond
    obtain rfl : first = e := by
      rcases max_choice first minExponent with same | same <;> omega
    refine le_divNearestEven pos ?_
    rw [scaleBy_div, le_div_iff₀ (two_zpow_pos _)]
    calc ((2 ^ 52 : Nat) : ℚ) * 2 ^ first = 2 ^ (52 + first) := by rw [two_zpow_add]; norm_num
      _ ≤ n / d := low
  have least : minExponent ≤ e := exponent ▸ le_max_right _ _
  generalize divNearestEven (scaleBy n d e).1 (scaleBy n d e).2 = m at atMost atLeast
  unfold carried
  by_cases full : m = 2 ^ 53
  · simp only [full, beq_self_eq_true, if_true]
    split
    · trivial
    · next within => exact ⟨by decide, by omega, not_lt.mp within, fun _ => le_rfl⟩
  · simp only [beq_eq_false_iff_ne.mpr full, Bool.false_eq_true, if_false]
    split
    · trivial
    · next within => exact ⟨lt_of_le_of_ne atMost full, least, not_lt.mp within, atLeast⟩

/-! ### The Interval of a Number -/

/-- The room below a number in quarters of its last place: half of the usual one where the numbers
below lie closer. -/
def roomBelow (m : Nat) (e : Int) : Nat :=
  if m = 2 ^ 52 ∧ minExponent < e then 1 else 2

/-- **The rationals that round to the positive number `m · 2 ^ e`**, the ends of their interval only
if the mantissa is even. -/
def RoundsTo (v : ℚ) (m : Nat) (e : Int) : Prop :=
  ((m - roomBelow m e / 4) * 2 ^ e ≤ v ∧ v ≤ (m + 1 / 2) * 2 ^ e) ∧
    (m % 2 = 1 → (m - roomBelow m e / 4) * 2 ^ e < v ∧ v < (m + 1 / 2) * 2 ^ e)

theorem roomBelow_le (m : Nat) (e : Int) : (roomBelow m e / 4 : ℚ) ≤ 1 / 2 := by
  unfold roomBelow
  split <;> norm_num

theorem RoundsTo.pos (h : RoundsTo v m e) (hm : 0 < m) : 0 < v := by
  have room := roomBelow_le m e
  have one : (1 : ℚ) ≤ m := by exact_mod_cast hm
  exact lt_of_lt_of_le (mul_pos (by linarith) (two_zpow_pos e)) h.1.1

/-- With the usual room below, what rounds to a number is near to its mantissa. -/
theorem RoundsTo.isNear (h : RoundsTo v m e) : IsNear (v / 2 ^ e) m := by
  have pos := two_zpow_pos e
  have room := roomBelow_le m e
  obtain ⟨⟨low, high⟩, odd⟩ := h
  refine ⟨⟨?_, ?_⟩, fun one => ⟨?_, ?_⟩⟩
  · rw [le_div_iff₀ pos]
    exact (mul_le_mul_of_nonneg_right (by linarith) pos.le).trans low
  · rwa [div_le_iff₀ pos]
  · rw [lt_div_iff₀ pos]
    exact (mul_le_mul_of_nonneg_right (by linarith) pos.le).trans_lt (odd one).1
  · rw [div_lt_iff₀ pos]
    exact (odd one).2

/-- The exponent of a quotient is that of the number that it rounds to, unless the quotient is less
than the least number with the exponent. -/
theorem RoundsTo.leadingExponent_eq (hn : 0 < n) (hd : 0 < d)
    (canonical : (finite negative m e).IsCanonical) (h : RoundsTo (n / d) m e)
    (large : minExponent < e → (2 : ℚ) ^ (52 + e) ≤ n / d) :
    max (leadingExponent n d) minExponent = e := by
  obtain ⟨bits, least, -, full⟩ := canonical
  obtain ⟨low, high⟩ := leadingExponent_spec hn hd
  have bits : (m + 1 : ℚ) ≤ 2 ^ (53 : Int) := by
    have : m + 1 ≤ 2 ^ 53 := bits
    exact_mod_cast this
  have below : (n / d : ℚ) < 2 ^ (53 + e) := by
    rw [two_zpow_add]
    exact h.1.2.trans_lt (mul_lt_mul_of_pos_right (by linarith) (two_zpow_pos e))
  have le : 52 + leadingExponent n d < 53 + e :=
    (zpow_lt_zpow_iff_right₀ (by norm_num)).mp (low.trans_lt below)
  rcases eq_or_lt_of_le least with rfl | beyond
  · exact max_eq_right (by omega)
  · have ge : 52 + e < 53 + leadingExponent n d :=
      (zpow_lt_zpow_iff_right₀ (by norm_num)).mp ((large beyond).trans_lt high)
    omega

/-- What is less than the least number with an exponent and still rounds to a number with it has the
exponent before, and is near to the mantissa that is carried. -/
theorem RoundsTo.isNear_carried (hn : 0 < n) (hd : 0 < d) (h : RoundsTo (n / d) m e)
    (beyond : minExponent < e) (full : 2 ^ 52 ≤ m) (small : (n / d : ℚ) < 2 ^ (52 + e)) :
    m = 2 ^ 52 ∧ max (leadingExponent n d) minExponent = e - 1 ∧
      IsNear (n / d / 2 ^ (e - 1)) (2 ^ 53) := by
  obtain ⟨low, high⟩ := leadingExponent_spec hn hd
  have unit := two_zpow_pos e
  obtain rfl : m = 2 ^ 52 := by
    by_contra other
    have more : ((2 ^ 52 : Nat) + 1 : ℚ) ≤ m := by exact_mod_cast (by omega : 2 ^ 52 + 1 ≤ m)
    have room := roomBelow_le m e
    refine absurd h.1.1 (not_le.mpr (small.trans_le ?_))
    rw [two_zpow_add]
    refine mul_le_mul_of_nonneg_right ?_ unit.le
    push_cast at more
    rw [show (52 : Int) = (52 : Nat) by rfl, zpow_natCast]
    linarith
  have room : roomBelow (2 ^ 52) e = 1 := if_pos ⟨rfl, beyond⟩
  obtain ⟨⟨from_, upto⟩, -⟩ := h
  rw [room] at from_
  have half : (2 : ℚ) ^ e = 2 * 2 ^ (e - 1) := by
    rw [show e = 1 + (e - 1) by ring, two_zpow_add, zpow_one, show 1 + (e - 1) - 1 = e - 1 by ring]
  have lower : 52 + leadingExponent n d < 52 + e :=
    (zpow_lt_zpow_iff_right₀ (by norm_num : (1 : ℚ) < 2)).mp (low.trans_lt small)
  have upper : 51 + e < 53 + leadingExponent n d := by
    refine (zpow_lt_zpow_iff_right₀ (by norm_num : (1 : ℚ) < 2)).mp (lt_of_le_of_lt ?_ high)
    refine le_trans ?_ from_
    rw [two_zpow_add]
    exact mul_le_mul_of_nonneg_right (by norm_num) unit.le
  refine ⟨rfl, by omega, ⟨?_, ?_⟩, fun odd => by simp at odd⟩
  · rw [le_div_iff₀ (two_zpow_pos _)]
    rw [half] at from_
    push_cast at from_ ⊢
    linarith
  · rw [div_le_iff₀ (two_zpow_pos _)]
    refine small.le.trans ?_
    rw [two_zpow_add, half]
    have pos := two_zpow_pos (e - 1)
    push_cast
    nlinarith

/-- **A quotient is rounded to the number whose interval it lies in.** -/
theorem ofRatio_of_roundsTo (hn : 0 < n) (hd : 0 < d)
    (canonical : (finite negative m e).IsCanonical) (h : RoundsTo (n / d) m e) :
    ofRatio negative n d = finite negative m e := by
  have ⟨bits, least, greatest, full⟩ := canonical
  by_cases large : minExponent < e → (2 : ℚ) ^ (52 + e) ≤ n / d
  · rw [ofRatio_eq negative hn (h.leadingExponent_eq hn hd canonical large),
      divNearestEven_eq (scaleBy_pos hd n e) (by rw [scaleBy_div]; exact h.isNear)]
    exact carried_of_ne bits.ne greatest
  · push Not at large
    obtain ⟨beyond, small⟩ := large
    obtain ⟨rfl, exponent, near⟩ := h.isNear_carried hn hd beyond (full beyond) small
    rw [ofRatio_eq negative hn exponent,
      divNearestEven_eq (scaleBy_pos hd n _) (by rw [scaleBy_div]; exact near),
      carried_of_full (by omega), sub_add_cancel]

/-! ### Rounding a Decimal -/

theorem lt_pow_decimalLength (n : Nat) : n < 10 ^ decimalLength n :=
  (Nat.length_toDigits_le_iff (by decide) Nat.length_toDigits_pos).mp le_rfl

theorem pow_decimalLength_le (h : 0 < n) : 10 ^ (decimalLength n - 1) ≤ n := by
  by_contra small
  rw [not_le] at small
  have nonempty : 0 < decimalLength n := Nat.length_toDigits_pos
  by_cases one : decimalLength n = 1
  · rw [one] at small
    simp at small
    omega
  · have shorter := (Nat.length_toDigits_le_iff (by decide)
      (show 0 < decimalLength n - 1 by omega)).mpr small
    change decimalLength n ≤ decimalLength n - 1 at shorter
    omega

/-- A power of ten has a digit more than its exponent. -/
theorem decimalLength_pow (n : Nat) : decimalLength (10 ^ n) = n + 1 := by
  have above := lt_pow_decimalLength (10 ^ n)
  have below := pow_decimalLength_le (Nat.pow_pos (n := n) (show 0 < 10 by decide))
  rw [Nat.pow_lt_pow_iff_right (by decide)] at above
  rw [Nat.pow_le_pow_iff_right (by decide)] at below
  omega

/-- What is read from decimal digits is a number of the format. -/
theorem isCanonical_ofDecimal (negative : Bool) (digits : Nat) (exponent : Int) :
    (ofDecimal negative digits exponent).IsCanonical := by
  simp only [ofDecimal]
  split_ifs
  · exact isCanonical_zero
  · trivial
  · exact isCanonical_zero
  · exact isCanonical_ofRatio _ _ (Nat.pow_pos (by decide))
  · exact isCanonical_ofRatio _ _ (by decide)

theorem ten_zpow_add (a e : Int) : (10 : ℚ) ^ (a + e) = 10 ^ a * 10 ^ e :=
  zpow_add₀ (by norm_num) a e

theorem ten_zpow_pos (e : Int) : (0 : ℚ) < 10 ^ e :=
  zpow_pos (by norm_num) e

/-- A decimal lies between the powers of ten that its magnitude tells. -/
theorem decimal_between (hn : 0 < n) (exponent : Int) :
    (10 : ℚ) ^ (decimalLength n + exponent - 1) ≤ n * 10 ^ exponent ∧
      (n * 10 ^ exponent : ℚ) < 10 ^ (decimalLength n + exponent) := by
  have pos := ten_zpow_pos exponent
  have length : 0 < decimalLength n := Nat.length_toDigits_pos
  constructor
  · rw [show (decimalLength n + exponent - 1 : Int) = (decimalLength n - 1 : Nat) + exponent by omega,
      ten_zpow_add, zpow_natCast]
    refine mul_le_mul_of_nonneg_right ?_ pos.le
    exact_mod_cast pow_decimalLength_le hn
  · rw [ten_zpow_add, zpow_natCast]
    refine mul_lt_mul_of_pos_right ?_ pos
    exact_mod_cast lt_pow_decimalLength n

/-- Five decimal digits are more than sixteen bits. -/
theorem two_zpow_lt_ten_zpow {bits digits : Int} (k : Nat) (hk : k ≠ 0) (hb : bits = (16 * k : Nat))
    (hd : digits = (5 * k : Nat)) : (2 : ℚ) ^ bits < 10 ^ digits := by
  rw [hb, hd, zpow_natCast, zpow_natCast, pow_mul, pow_mul]
  exact pow_lt_pow_left₀ (by norm_num) (by norm_num) hk

/-- A decimal that rounds to a positive finite number is not so great or so small that its magnitude
settles it. -/
theorem RoundsTo.magnitude (canonical : (finite negative m e).IsCanonical) (hm : 0 < m)
    (hn : 0 < n) {exponent : Int} (h : RoundsTo (n * 10 ^ exponent) m e) :
    -340 ≤ decimalLength n + exponent ∧ decimalLength n + exponent ≤ 320 := by
  obtain ⟨bits, least, greatest, -⟩ := canonical
  obtain ⟨low, high⟩ := decimal_between hn exponent
  have unit := two_zpow_pos e
  have bits : (m + 1 : ℚ) ≤ 2 ^ (53 : Int) := by
    have : m + 1 ≤ 2 ^ 53 := bits
    exact_mod_cast this
  have one : (1 : ℚ) ≤ m := by exact_mod_cast hm
  have room := roomBelow_le m e
  constructor
  · have above : (10 : ℚ) ^ (-340 : Int) < 10 ^ (decimalLength n + exponent) := by
      refine lt_of_lt_of_le ?_ (h.1.1.trans high.le)
      calc (10 : ℚ) ^ (-340 : Int) < 2 ^ (-1088 : Int) := by
            rw [zpow_neg, zpow_neg]
            exact inv_strictAnti₀ (two_zpow_pos _) (two_zpow_lt_ten_zpow 68 (by decide) rfl rfl)
        _ ≤ 2 ^ (-1 + -1074 : Int) := zpow_le_zpow_right₀ (by norm_num) (by norm_num)
        _ = 1 / 2 * 2 ^ (-1074 : Int) := by rw [two_zpow_add, zpow_neg_one, one_div]
        _ ≤ 1 / 2 * 2 ^ e :=
            mul_le_mul_of_nonneg_left (zpow_le_zpow_right₀ (by norm_num) least) (by norm_num)
        _ ≤ (m - roomBelow m e / 4) * 2 ^ e :=
            mul_le_mul_of_nonneg_right (by linarith) unit.le
    exact ((zpow_lt_zpow_iff_right₀ (by norm_num : (1 : ℚ) < 10)).mp above).le
  · have below : (10 : ℚ) ^ (decimalLength n + exponent - 1) < 10 ^ (320 : Int) := by
      refine lt_of_le_of_lt (low.trans h.1.2) ?_
      calc (m + 1 / 2 : ℚ) * 2 ^ e ≤ 2 ^ (53 : Int) * 2 ^ e :=
            mul_le_mul_of_nonneg_right (by linarith) unit.le
        _ ≤ 2 ^ (53 : Int) * 2 ^ (971 : Int) :=
            mul_le_mul_of_nonneg_left (zpow_le_zpow_right₀ (by norm_num) greatest) (by positivity)
        _ = 2 ^ (1024 : Int) := (two_zpow_add 53 971).symm
        _ < 10 ^ (320 : Int) := two_zpow_lt_ten_zpow 64 (by decide) rfl rfl
    have := (zpow_lt_zpow_iff_right₀ (by norm_num : (1 : ℚ) < 10)).mp below
    omega

/-- **A decimal is rounded to the number whose interval it lies in.** -/
theorem ofDecimal_of_roundsTo (canonical : (finite negative m e).IsCanonical) (hm : 0 < m)
    {exponent : Int} (h : RoundsTo (n * 10 ^ exponent) m e) :
    ofDecimal negative n exponent = finite negative m e := by
  have hn : 0 < n := by
    rcases Nat.eq_zero_or_pos n with rfl | hn
    · exact absurd (h.pos hm) (by simp)
    · exact hn
  obtain ⟨low, high⟩ := h.magnitude canonical hm hn
  have nonzero : (n == 0) = false := beq_eq_false_iff_ne.mpr hn.ne'
  have power := zpow_eq_div 10 (by decide) exponent
  rw [Nat.cast_ofNat] at power
  rw [power] at h
  simp only [ofDecimal, nonzero, Bool.false_eq_true, if_false, not_lt.mpr low, not_lt.mpr high]
  split
  · next neg =>
    rw [show exponent.toNat = 0 by omega, pow_zero, Nat.cast_one, mul_one_div] at h
    exact ofRatio_of_roundsTo hn (Nat.pow_pos (by decide)) canonical h
  · next nonneg =>
    rw [show (-exponent).toNat = 0 by omega, pow_zero, Nat.cast_one, div_one, ← Nat.cast_mul,
      ← div_one (Nat.cast _)] at h
    exact ofRatio_of_roundsTo (Nat.mul_pos hn (Nat.pow_pos (by decide))) (by decide) canonical
      (by simpa using h)

end Binary64

end RouteDocs
