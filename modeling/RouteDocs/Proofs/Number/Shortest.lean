import RouteDocs.Number.Shortest
import RouteDocs.Proofs.Number.Nearest

/-!
# Shortest Decimals Read Back

The search for the shortest decimal of a positive number finds one. It is not zero, and it is rounded
to the number.

## Main Statements

* `Binary64.decimalExponent_le`: the power of ten of the first digit does not exceed the number
* `Binary64.exists_roundingInterval`: the interval of the search is that of what rounds to the number
* `Binary64.onGrid?_pos`: no grid up to that power gives zero
* `Binary64.onGrid?_isSome`: the finest grid gives a decimal
* `Binary64.shortest_pos`: the digits of a positive number are not zero
* `Binary64.roundsTo_shortest`: **the shortest decimal lies in the interval of its number**

## Design Notes

A comparison with a power of ten is cleared of denominators: one side is multiplied by the power
with a positive exponent, the other one by the power with a negative exponent.
-/

namespace RouteDocs

namespace Binary64

variable {n d m : Nat} {e : Int}

/-! ### The First Digit -/

/-- The power of ten of the first digit does not exceed the quotient. -/
theorem decimalExponent_le (hn : 0 < n) (hd : 0 < d) :
    d * 10 ^ (decimalExponent n d).toNat ≤ n * 10 ^ (-decimalExponent n d).toNat := by
  unfold decimalExponent
  split
  · next le =>
    have length : 0 < decimalLength (n / d) := Nat.length_toDigits_pos
    have up : ((decimalLength (n / d) : Int) - 1).toNat = decimalLength (n / d) - 1 := by omega
    have down : (-((decimalLength (n / d) : Int) - 1)).toNat = 0 := by omega
    rw [up, down, pow_zero, mul_one]
    calc d * 10 ^ (decimalLength (n / d) - 1) ≤ d * (n / d) :=
          Nat.mul_le_mul_left d (pow_decimalLength_le (Nat.div_pos le hd))
      _ ≤ n := Nat.mul_div_le n d
  · next lt =>
    -- the inverse, rounded up, is at least the exact inverse
    have inverse : d ≤ n * ((d + n - 1) / n) := by
      have division := Nat.div_add_mod (d + n - 1) n
      have remainder := Nat.mod_lt (d + n - 1) hn
      omega
    have length : 0 < decimalLength ((d + n - 1) / n) := Nat.length_toDigits_pos
    simp only [Nat.pow_eq]
    split
    · next power =>
      have power := eq_of_beq power
      have up : (1 - (decimalLength ((d + n - 1) / n) : Int)).toNat = 0 := by omega
      have down : (-(1 - (decimalLength ((d + n - 1) / n) : Int))).toNat =
          decimalLength ((d + n - 1) / n) - 1 := by omega
      rw [up, down, pow_zero, mul_one, ← power]
      exact inverse
    · have up : (-(decimalLength ((d + n - 1) / n) : Int)).toNat = 0 := by omega
      have down : (- -(decimalLength ((d + n - 1) / n) : Int)).toNat =
          decimalLength ((d + n - 1) / n) := by omega
      rw [up, down, pow_zero, mul_one]
      calc d ≤ n * ((d + n - 1) / n) := inverse
        _ ≤ n * 10 ^ decimalLength ((d + n - 1) / n) :=
          Nat.mul_le_mul_left n (lt_pow_decimalLength _).le

/-- The comparison with a power of ten, moved to a lower power. -/
theorem scaled_le {top : Int} (h : d * 10 ^ top.toNat ≤ n * 10 ^ (-top).toNat) (j : Nat) :
    10 ^ j * (d * 10 ^ (top - j).toNat) ≤ n * 10 ^ (-(top - j)).toNat := by
  have exponents : j + (top - j).toNat + (-top).toNat = top.toNat + (-(top - j)).toNat := by omega
  have pos : 0 < 10 ^ (-top).toNat := Nat.pow_pos (by decide)
  refine Nat.le_of_mul_le_mul_right ?_ pos
  calc 10 ^ j * (d * 10 ^ (top - j).toNat) * 10 ^ (-top).toNat
      = d * 10 ^ (j + (top - j).toNat + (-top).toNat) := by rw [pow_add, pow_add]; ring
    _ = d * 10 ^ top.toNat * 10 ^ (-(top - j)).toNat := by rw [exponents, pow_add]; ring
    _ ≤ n * 10 ^ (-top).toNat * 10 ^ (-(top - j)).toNat := Nat.mul_le_mul_right _ h
    _ = n * 10 ^ (-(top - j)).toNat * 10 ^ (-top).toNat := by ring

/-! ### The Interval -/

/-- **The interval of the search is that of what rounds to the number**, and every number of the
format has more room below it than a part in `2 ^ 55`. -/
theorem exists_roundingInterval (hm : 0 < m) (bound : m < 2 ^ 53) :
    ∃ low value high d, roundingInterval m e = (low, value, high, d) ∧ 0 < d ∧ 0 < value ∧
      low ≤ value ∧ value < high ∧ value < 2 ^ 55 * (value - low) ∧
      (low / d : ℚ) = (m - roomBelow m e / 4) * 2 ^ e ∧ (high / d : ℚ) = (m + 1 / 2) * 2 ^ e := by
  have same : (if m == Nat.pow 2 52 && minExponent < e then 1 else 2) = roomBelow m e := by
    simp [roomBelow]
  have room : roomBelow m e = 1 ∨ roomBelow m e = 2 := by
    unfold roomBelow
    split <;> simp
  have power := zpow_eq_div 2 (by decide) e
  rw [Nat.cast_ofNat] at power
  rw [power]
  unfold roundingInterval
  rw [same]
  generalize roomBelow m e = below at room
  simp only [Nat.pow_eq]
  split
  · next nonneg =>
    have unit : 0 < 2 ^ e.toNat := Nat.pow_pos (by decide)
    have fits : below * 2 ^ e.toNat ≤ 4 * m * 2 ^ e.toNat :=
      Nat.mul_le_mul_right _ (by omega)
    refine ⟨_, _, _, _, rfl, by decide, by positivity, Nat.sub_le _ _, by omega, ?_, ?_, ?_⟩
    · rw [Nat.sub_sub_self fits]
      calc 4 * m * 2 ^ e.toNat < 2 ^ 55 * below * 2 ^ e.toNat :=
            Nat.mul_lt_mul_of_pos_right (by omega) unit
        _ = 2 ^ 55 * (below * 2 ^ e.toNat) := by ring
    · rw [show (-e).toNat = 0 by omega]
      push_cast [Nat.cast_sub fits]
      ring
    · rw [show (-e).toNat = 0 by omega]
      push_cast
      ring
  · next neg =>
    have fits : below ≤ 4 * m := by omega
    refine ⟨_, _, _, _, rfl, by positivity, by omega, Nat.sub_le _ _, by omega, by omega, ?_, ?_⟩
    · rw [show e.toNat = 0 by omega]
      push_cast [Nat.cast_sub fits]
      field_simp
    · rw [show e.toNat = 0 by omega]
      push_cast
      field_simp
      ring

/-! ### The Grids -/

variable {low value high : Nat} {closed : Bool} {power top : Int}

/-- No grid up to the power of the first digit gives zero. -/
theorem onGrid?_pos {k : Nat} (hd : 0 < d)
    (le : d * 10 ^ power.toNat ≤ value * 10 ^ (-power).toNat)
    (h : onGrid? (low, value, high, d) closed power = some k) : 0 < k := by
  have floor : 0 < value * 10 ^ (-power).toNat / (d * 10 ^ power.toNat) :=
    Nat.div_pos le (by positivity)
  simp only [onGrid?, Nat.pow_eq] at h
  split at h
  · cases h
  · cases h
    exact floor
  · cases h
    exact Nat.succ_pos _
  · split_ifs at h <;> cases h <;> omega

/-- The greatest multiple below the number is inside if the grid is finer than the room below. -/
theorem onGrid?_isSome (hd : 0 < d) (le : low ≤ value) (lt : value < high)
    (fine : d * 10 ^ power.toNat ≤ (value - low) * 10 ^ (-power).toNat) :
    (onGrid? (low, value, high, d) closed power).isSome = true := by
  have step : 0 < d * 10 ^ power.toNat := by positivity
  have up : 0 < 10 ^ (-power).toNat := Nat.pow_pos (by decide)
  have division := Nat.div_add_mod (value * 10 ^ (-power).toNat) (d * 10 ^ power.toNat)
  have remainder := Nat.mod_lt (value * 10 ^ (-power).toNat) step
  have gap := Nat.sub_mul value low (10 ^ (-power).toNat)
  have lowest := Nat.mul_le_mul_right (10 ^ (-power).toNat) le
  have highest := Nat.mul_lt_mul_of_pos_right lt up
  rw [mul_comm (d * 10 ^ power.toNat)] at division
  have above : low * 10 ^ (-power).toNat <
      value * 10 ^ (-power).toNat / (d * 10 ^ power.toNat) * (d * 10 ^ power.toNat) := by omega
  have below : value * 10 ^ (-power).toNat / (d * 10 ^ power.toNat) * (d * 10 ^ power.toNat) <
      high * 10 ^ (-power).toNat := by omega
  simp only [onGrid?, Nat.pow_eq]
  split
  · next outside _ => cases closed <;> simp [above, below, above.le, below.le] at outside
  · rfl
  · next outside _ => cases closed <;> simp [above, below, above.le, below.le] at outside
  · split_ifs <;> rfl

/-- What a grid gives is inside the interval, which has its ends if it is closed. -/
theorem onGrid?_inside {k : Nat} (h : onGrid? (low, value, high, d) closed power = some k) :
    (low * 10 ^ (-power).toNat ≤ k * (d * 10 ^ power.toNat) ∧
      k * (d * 10 ^ power.toNat) ≤ high * 10 ^ (-power).toNat) ∧
    (closed = false → low * 10 ^ (-power).toNat < k * (d * 10 ^ power.toNat) ∧
      k * (d * 10 ^ power.toNat) < high * 10 ^ (-power).toNat) := by
  simp only [onGrid?, Nat.pow_eq] at h
  -- Whichever neighbour is taken, it has been tested.
  have tested : (if closed = true then
      decide (low * 10 ^ (-power).toNat ≤ k * (d * 10 ^ power.toNat)) &&
        decide (k * (d * 10 ^ power.toNat) ≤ high * 10 ^ (-power).toNat)
      else decide (low * 10 ^ (-power).toNat < k * (d * 10 ^ power.toNat)) &&
        decide (k * (d * 10 ^ power.toNat) < high * 10 ^ (-power).toNat)) = true := by
    split at h
    · cases h
    · next first _ =>
      cases h
      exact first
    · next _ second =>
      cases h
      exact second
    · next first second =>
      split_ifs at h <;> cases h <;> assumption
  cases closed with
  | true =>
      rw [if_pos rfl, Bool.and_eq_true, decide_eq_true_eq, decide_eq_true_eq] at tested
      exact ⟨tested, nofun⟩
  | false =>
      rw [if_neg Bool.false_ne_true, Bool.and_eq_true, decide_eq_true_eq, decide_eq_true_eq]
        at tested
      exact ⟨⟨tested.1.le, tested.2.le⟩, fun _ => tested⟩

/-- A comparison with a decimal, cleared of denominators. -/
theorem decimal_compare {k : Nat} (hd : 0 < d) (a : Nat) (power : Int) :
    ((a / d : ℚ) ≤ k * 10 ^ power ↔
      a * 10 ^ (-power).toNat ≤ k * (d * 10 ^ power.toNat)) ∧
    ((k * 10 ^ power : ℚ) ≤ a / d ↔
      k * (d * 10 ^ power.toNat) ≤ a * 10 ^ (-power).toNat) := by
  have hd' : (0 : ℚ) < d := by exact_mod_cast hd
  have up : (0 : ℚ) < (10 ^ (-power).toNat : Nat) := by positivity
  have product : (k * ((10 ^ power.toNat : Nat) / (10 ^ (-power).toNat : Nat)) : ℚ) =
      (k * 10 ^ power.toNat : Nat) / (10 ^ (-power).toNat : Nat) := by
    push_cast
    ring
  have power := zpow_eq_div 10 (by decide) power
  rw [Nat.cast_ofNat] at power
  rw [power, product, div_le_div_iff₀ hd' up, div_le_div_iff₀ up hd']
  constructor <;> norm_cast <;> ring_nf

/-- **The search gives what a grid from the first digit onwards gives**, if those with more than
seventeen digits give something. -/
theorem shortestFrom_of_grids {interval : Nat × Nat × Nat × Nat} {P : Nat × Int → Prop}
    (grids : ∀ j k : Nat, onGrid? interval closed (top - j) = some k → P (k, top - j))
    (some : ∀ j : Nat, 18 ≤ j → (onGrid? interval closed (top - j)).isSome = true)
    {rounds digits : Nat} (first : 1 ≤ digits) (enough : 18 ≤ rounds + digits) :
    P (shortestFrom interval closed top rounds digits) := by
  induction rounds generalizing digits with
  | zero =>
      obtain ⟨k, hk⟩ := Option.isSome_iff_exists.mp (some digits (by omega))
      rw [shortestFrom, hk]
      exact grids digits k hk
  | succ rounds ih =>
      have power : top + 1 - digits = top - (digits - 1 : Nat) := by omega
      rw [shortestFrom, power]
      cases found : onGrid? interval closed (top - (digits - 1 : Nat)) with
      | none => exact ih (by omega) (by omega)
      | some k => exact grids _ k found

/-- The digits of a positive number are not zero, and their decimal rounds to the number. -/
theorem shortest_spec (hm : 0 < m) (bound : m < 2 ^ 53) :
    0 < (shortest m e).1 ∧ RoundsTo ((shortest m e).1 * 10 ^ (shortest m e).2) m e := by
  obtain ⟨low, value, high, d, interval, hd, hvalue, le, lt, gap, lowEnd, highEnd⟩ :=
    exists_roundingInterval (e := e) hm bound
  have scaled := scaled_le (decimalExponent_le hvalue hd)
  unfold shortest
  rw [interval]
  refine shortestFrom_of_grids
    (P := fun p => 0 < p.1 ∧ RoundsTo (p.1 * 10 ^ p.2) m e)
    (fun j k found => ⟨onGrid?_pos hd ?_ found, ?_⟩) (fun j finest => ?_) le_rfl (by decide)
  · exact (Nat.le_mul_of_pos_left _ (Nat.pow_pos (by decide))).trans (scaled j)
  · obtain ⟨⟨from_, upto⟩, open_⟩ := onGrid?_inside found
    have lower := decimal_compare (k := k) hd low (decimalExponent value d - j)
    have upper := decimal_compare (k := k) hd high (decimalExponent value d - j)
    rw [lowEnd] at lower
    rw [highEnd] at upper
    refine ⟨⟨lower.1.mpr from_, upper.2.mpr upto⟩, fun odd => ?_⟩
    obtain ⟨from_, upto⟩ := open_ (beq_eq_false_iff_ne.mpr (by omega))
    exact ⟨not_le.mp (mt lower.2.mp (not_le.mpr from_)),
      not_le.mp (mt upper.1.mp (not_le.mpr upto))⟩
  · refine onGrid?_isSome hd le lt ?_
    refine Nat.le_of_mul_le_mul_left ?_ (show 0 < 10 ^ 18 by decide)
    calc 10 ^ 18 * (d * 10 ^ (decimalExponent value d - j).toNat)
        ≤ 10 ^ j * (d * 10 ^ (decimalExponent value d - j).toNat) :=
          Nat.mul_le_mul_right _ (Nat.pow_le_pow_right (by decide) finest)
      _ ≤ value * 10 ^ (-(decimalExponent value d - j)).toNat := scaled j
      _ ≤ 10 ^ 18 * (value - low) * 10 ^ (-(decimalExponent value d - j)).toNat :=
          Nat.mul_le_mul_right _ (by omega)
      _ = 10 ^ 18 * ((value - low) * 10 ^ (-(decimalExponent value d - j)).toNat) := by ring

/-- **The digits of a positive number are not zero.** -/
theorem shortest_pos (hm : 0 < m) (bound : m < 2 ^ 53) : 0 < (shortest m e).1 :=
  (shortest_spec hm bound).1

/-- **The shortest decimal of a positive number lies in the interval of the number.** -/
theorem roundsTo_shortest (hm : 0 < m) (bound : m < 2 ^ 53) :
    RoundsTo ((shortest m e).1 * 10 ^ (shortest m e).2) m e :=
  (shortest_spec hm bound).2

end Binary64

end RouteDocs
