import Mathlib.Algebra.Order.Field.Power
import Mathlib.Data.Rat.Cast.Order
import Mathlib.Tactic.FieldSimp
import Mathlib.Tactic.Linarith
import Mathlib.Tactic.NormNum
import Mathlib.Tactic.Positivity
import Mathlib.Tactic.Ring
import RolePlan.Binary64

/-!
# The shortest decimal of a double reads back

The decimals that round to a double make up an interval around it. The intervals of two doubles
have no point in common: where they meet, in the midpoint of neighbours, one of the significands is
odd, and its interval is open. `shortest` finds a decimal in the interval, on the grid of seventeen
digits at the latest. So a double is known from its shortest decimal.
-/

namespace RolePlan.Binary64

/-- What every double fulfils: only the least ones have significands below `2 ^ 52`. -/
structure Canonical (x : Binary64) : Prop where
  significand_lt : x.significand < 2 ^ 53
  le_significand : x.exponent ≠ leastExponent → 2 ^ 52 ≤ x.significand
  le_exponent : leastExponent ≤ x.exponent
  exponent_le : x.exponent ≤ greatestExponent

def binary (b : Nat) (e : Int) : ℚ := b * 2 ^ e

def decimal (d : Nat) (k : Int) : ℚ := d * 10 ^ k

/-! ## Comparisons -/

theorem powerFraction_pos {base : Nat} (hbase : 0 < base) (e : Int) :
    0 < (powerFraction base e).1 ∧ 0 < (powerFraction base e).2 := by
  rw [powerFraction]
  split
  · exact ⟨Nat.pow_pos hbase, Nat.one_pos⟩
  · exact ⟨Nat.one_pos, Nat.pow_pos hbase⟩

theorem powerFraction_fst {base : Nat} (hbase : 0 < base) (e : Int) :
    ((powerFraction base e).1 : ℚ) = (base : ℚ) ^ e * (powerFraction base e).2 := by
  have hne : (base : ℚ) ≠ 0 := by exact_mod_cast hbase.ne'
  rw [powerFraction]
  split
  · next h =>
      lift e to ℕ using h
      simp
  · next h =>
      obtain ⟨n, rfl⟩ := Int.exists_eq_neg_ofNat (le_of_not_ge h)
      simp [hne]

section Scaled

variable (a b : Nat) (k e : Int)

def denominator : Nat := (powerFraction 10 k).2 * (powerFraction 2 e).2

theorem denominator_pos : (0 : ℚ) < denominator k e :=
  Nat.cast_pos.mpr (Nat.mul_pos (powerFraction_pos (by decide) k).2
    (powerFraction_pos (by decide) e).2)

theorem decimal_mul_denominator :
    decimal a k * denominator k e =
      (a * (powerFraction 10 k).1 * (powerFraction 2 e).2 : Nat) := by
  rw [decimal, denominator]
  push_cast
  rw [powerFraction_fst (by decide) k]
  push_cast
  ring

theorem binary_mul_denominator :
    binary b e * denominator k e =
      (b * (powerFraction 2 e).1 * (powerFraction 10 k).2 : Nat) := by
  rw [binary, denominator]
  push_cast
  rw [powerFraction_fst (by decide) e]
  push_cast
  ring

theorem compareScaled_eq : compareScaled a k b e = compare (decimal a k) (binary b e) := by
  have hpos := denominator_pos k e
  rw [compareScaled]
  dsimp only
  rcases lt_trichotomy (decimal a k) (binary b e) with h | h | h
  · rw [compare_lt_iff_lt.mpr h, Nat.compare_eq_lt, ← Nat.cast_lt (α := ℚ),
      ← decimal_mul_denominator, ← binary_mul_denominator]
    exact mul_lt_mul_of_pos_right h hpos
  · rw [compare_eq_iff_eq.mpr h, Nat.compare_eq_eq, ← Nat.cast_inj (R := ℚ),
      ← decimal_mul_denominator, ← binary_mul_denominator, h]
  · rw [compare_gt_iff_gt.mpr h, Nat.compare_eq_gt, ← Nat.cast_lt (α := ℚ),
      ← decimal_mul_denominator, ← binary_mul_denominator]
    exact mul_lt_mul_of_pos_right h hpos

theorem gridFloor_spec :
    decimal (gridFloor k b e) k ≤ binary b e ∧ binary b e < decimal (gridFloor k b e + 1) k := by
  have hpos := denominator_pos k e
  have hden : 0 < (powerFraction 10 k).1 * (powerFraction 2 e).2 :=
    Nat.mul_pos (powerFraction_pos (by decide) k).1 (powerFraction_pos (by decide) e).2
  constructor
  · refine le_of_mul_le_mul_right ?_ hpos
    rw [decimal_mul_denominator, binary_mul_denominator, Nat.cast_le, Nat.mul_assoc]
    exact Nat.div_mul_le_self _ _
  · refine lt_of_mul_lt_mul_right ?_ hpos.le
    rw [decimal_mul_denominator, binary_mul_denominator, Nat.cast_lt, Nat.mul_assoc (_ + 1),
      Nat.mul_comm (_ + 1)]
    exact Nat.lt_mul_div_succ _ hden

end Scaled

/-! ## The interval around a double -/

def lower (x : Binary64) : ℚ := binary x.interval.1 (x.exponent - 2)

def upper (x : Binary64) : ℚ := binary x.interval.2 (x.exponent - 2)

/-- The number lies in the interval; the ends belong to it if the significand is even. -/
def RoundsTo (x : Binary64) (r : ℚ) : Prop :=
  (x.lower < r ∨ x.significand % 2 = 0 ∧ r = x.lower) ∧
    (r < x.upper ∨ x.significand % 2 = 0 ∧ r = x.upper)

theorem readsBack_iff (x : Binary64) (d : Nat) (k : Int) :
    x.readsBack d k = true ↔ x.RoundsTo (decimal d k) := by
  rw [readsBack, Bool.and_eq_true, compareScaled_eq, compareScaled_eq, ← lower, ← upper, RoundsTo]
  refine and_congr ?_ ?_
  · rcases lt_trichotomy (decimal d k) x.lower with h | h | h
    · simp [compare_lt_iff_lt.mpr h, h.not_gt, h.ne]
    · simp [h]
    · simp [compare_gt_iff_gt.mpr h, h]
  · rcases lt_trichotomy (decimal d k) x.upper with h | h | h
    · simp [compare_lt_iff_lt.mpr h, h]
    · simp [h]
    · simp [compare_gt_iff_gt.mpr h, h.not_gt, h.ne']

/-- Only where the exponent changes is the neighbour below half as far away. -/
theorem interval_cases (x : Binary64) :
    (x.significand = 2 ^ 52 ∧ x.exponent ≠ leastExponent ∧
        x.interval.1 = 4 * x.significand - 1) ∨
      ((x.significand = 2 ^ 52 → x.exponent = leastExponent) ∧
        x.interval.1 = 4 * x.significand - 2) := by
  rw [interval]
  dsimp only
  split
  · next h =>
      rw [Bool.and_eq_true, decide_eq_true_eq, decide_eq_true_eq] at h
      exact .inl ⟨h.1, h.2, rfl⟩
  · next h =>
      rw [Bool.and_eq_true, decide_eq_true_eq, decide_eq_true_eq, not_and, not_not] at h
      exact .inr ⟨h, rfl⟩

theorem interval_snd (x : Binary64) : x.interval.2 = 4 * x.significand + 2 := rfl

/-! ## Two intervals have no point in common -/

theorem binary_le_binary_iff {a b : Nat} {e : Int} : binary a e ≤ binary b e ↔ a ≤ b := by
  rw [binary, binary, mul_le_mul_iff_of_pos_right (by positivity), Nat.cast_le]

theorem binary_inj {a b : Nat} {e : Int} : binary a e = binary b e ↔ a = b := by
  rw [binary, binary, mul_left_inj' (by positivity), Nat.cast_inj]

/-- A number in units that are finer by a power of two. -/
theorem binary_add (b n : Nat) (e : Int) : binary b (e + n) = binary (b * 2 ^ n) e := by
  rw [binary, binary, zpow_add₀ (by norm_num), zpow_natCast]
  push_cast
  ring

/-- One double is less than another, if we look at the exponents first. -/
def Before (x y : Binary64) : Prop :=
  x.exponent < y.exponent ∨ x.exponent = y.exponent ∧ x.significand < y.significand

variable {x y : Binary64}

/-- The interval of a double ends where that of a greater one begins, or before. If it does not end
before, one of the significands is odd. -/
theorem upper_le_lower (hx : x.Canonical) (hy : y.Canonical) (h : x.Before y) :
    x.upper ≤ y.lower ∧
      (x.upper = y.lower → x.significand % 2 = 1 ∨ y.significand % 2 = 1) := by
  have hlt := hx.significand_lt
  rcases h with h | ⟨he, h⟩
  · obtain ⟨n, hn⟩ := Int.le.dest (Int.add_one_le_of_lt h)
    have hleast := hx.le_exponent
    have hne : y.exponent ≠ leastExponent := by omega
    have hge := hy.le_significand hne
    have hlow : 2 ^ 54 - 1 ≤ y.interval.1 := by
      obtain ⟨-, -, hlow⟩ | ⟨hpower, hlow⟩ := y.interval_cases
      · omega
      · have hpower := mt hpower hne
        omega
    have htwice : (2 ^ 54 - 1) * 2 ≤ y.interval.1 * 2 ^ (n + 1) :=
      Nat.mul_le_mul hlow (Nat.le_self_pow n.succ_ne_zero 2)
    have hunit : y.exponent - 2 = x.exponent - 2 + (n + 1 : ℕ) := by
      push_cast
      omega
    rw [upper, lower, hunit, binary_add, binary_le_binary_iff, binary_inj, interval_snd]
    omega
  · rw [upper, lower, he, binary_le_binary_iff, binary_inj, interval_snd]
    obtain ⟨-, -, hlow⟩ | ⟨-, hlow⟩ := y.interval_cases <;> omega

theorem not_roundsTo_of_before (hx : x.Canonical) (hy : y.Canonical) (h : x.Before y) {r : ℚ}
    (hr : x.RoundsTo r) : ¬ y.RoundsTo r := by
  rintro ⟨hlow, -⟩
  obtain ⟨-, hhigh⟩ := hr
  obtain ⟨hle, hodd⟩ := upper_le_lower hx hy h
  rcases hlow with hlow | ⟨hy, rfl⟩
  · rcases hhigh with hhigh | ⟨hx, rfl⟩
    · linarith
    · linarith
  · rcases hhigh with hhigh | ⟨hx, hr⟩
    · linarith
    · have := hodd hr.symm
      omega

/-- A number rounds to one double. -/
theorem eq_of_roundsTo (hx : x.Canonical) (hy : y.Canonical) {r : ℚ} (hr : x.RoundsTo r)
    (hr' : y.RoundsTo r) : x.significand = y.significand ∧ x.exponent = y.exponent := by
  rcases lt_trichotomy x.exponent y.exponent with he | he | he
  · exact absurd hr' (not_roundsTo_of_before hx hy (.inl he) hr)
  · rcases lt_trichotomy x.significand y.significand with hs | hs | hs
    · exact absurd hr' (not_roundsTo_of_before hx hy (.inr ⟨he, hs⟩) hr)
    · exact ⟨hs, he⟩
    · exact absurd hr (not_roundsTo_of_before hy hx (.inr ⟨he.symm, hs⟩) hr')
  · exact absurd hr (not_roundsTo_of_before hy hx (.inl he) hr')

/-! ## Seventeen digits suffice -/

def magnitude (x : Binary64) : ℚ := binary x.significand x.exponent

/-- The magnitude in quarters of the last place. -/
theorem magnitude_eq (x : Binary64) :
    x.magnitude = binary (4 * x.significand) (x.exponent - 2) := by
  have h := binary_add x.significand 2 (x.exponent - 2)
  rw [Nat.cast_ofNat, sub_add_cancel, Nat.mul_comm] at h
  exact h

theorem lower_lt_magnitude (x : Binary64) (hpos : x.significand ≠ 0) : x.lower < x.magnitude := by
  rw [lower, magnitude_eq, ← not_le, binary_le_binary_iff, not_le]
  obtain ⟨-, -, hlow⟩ | ⟨-, hlow⟩ := x.interval_cases <;> omega

theorem magnitude_lt_upper (x : Binary64) : x.magnitude < x.upper := by
  rw [upper, magnitude_eq, ← not_le, binary_le_binary_iff, not_le, interval_snd]
  omega

/-- A grid with seventeen digits before its point is finer than the interval is wide. -/
theorem step_lt_width (hx : x.Canonical) {k : Int}
    (hk : 10 ^ 16 * (10 : ℚ) ^ k ≤ x.magnitude) : x.lower + 10 ^ k < x.upper := by
  have hlt := hx.significand_lt
  have hunit : (0 : ℚ) < 2 ^ (x.exponent - 2) := by positivity
  have hwide : 4 * x.significand + x.interval.1 * 10 ^ 16 < x.interval.2 * 10 ^ 16 := by
    rw [interval_snd]
    obtain ⟨hpower, -, hlow⟩ | ⟨-, hlow⟩ := x.interval_cases <;> omega
  have hwide : (4 * x.significand + x.interval.1 * 10 ^ 16 : ℚ) < x.interval.2 * 10 ^ 16 := by
    exact_mod_cast hwide
  have hscaled := mul_lt_mul_of_pos_right hwide hunit
  rw [magnitude_eq, binary] at hk
  rw [lower, upper, binary, binary]
  push_cast at hk
  linarith

/-- So one of the two points next to the magnitude is in the interval. -/
theorem roundsTo_gridFloor (hx : x.Canonical) (hpos : x.significand ≠ 0) {k : Int}
    (hk : 10 ^ 16 * (10 : ℚ) ^ k ≤ x.magnitude) :
    x.RoundsTo (decimal (gridFloor k x.significand x.exponent) k) ∨
      x.RoundsTo (decimal (gridFloor k x.significand x.exponent + 1) k) := by
  have hlower := x.lower_lt_magnitude hpos
  have hupper := x.magnitude_lt_upper
  have hstep := step_lt_width hx hk
  obtain ⟨hle, hlt⟩ := gridFloor_spec x.significand k x.exponent
  generalize gridFloor k x.significand x.exponent = d at hle hlt ⊢
  have hnext : decimal (d + 1) k = decimal d k + 10 ^ k := by
    rw [decimal, decimal]
    push_cast
    ring
  rw [← magnitude] at hle hlt
  rw [hnext] at hlt ⊢
  by_cases hd : x.lower < decimal d k
  · exact .inl ⟨.inl hd, .inl (by linarith)⟩
  · exact .inr ⟨.inl (by linarith), .inl (by linarith)⟩

/-! ## The number of digits before the point -/

/-- The decimal logarithm of a power of two, from a quotient that is a little too large. -/
theorem ten_pow_le_two_pow : ∀ n < 1024, 10 ^ (n * 30103 / 100000) ≤ 2 ^ n := by
  decide +kernel

theorem two_pow_le_ten_pow : ∀ n < 1075, 2 ^ n ≤ 10 ^ ((n * 30103 + 99999) / 100000) := by
  decide +kernel

theorem ten_zpow_le_two_zpow {n : Int} (hlow : leastExponent ≤ n) (hhigh : n < 1024) :
    (10 : ℚ) ^ (n * 30103 / 100000) ≤ 2 ^ n := by
  rcases le_or_gt 0 n with h | h
  · lift n to ℕ using h
    have hle := ten_pow_le_two_pow n (by exact_mod_cast hhigh)
    have hcast : (n : Int) * 30103 / 100000 = (n * 30103 / 100000 : ℕ) := by omega
    rw [hcast, zpow_natCast, zpow_natCast]
    exact_mod_cast hle
  · obtain ⟨m, rfl⟩ := Int.exists_eq_neg_ofNat h.le
    rw [leastExponent] at hlow
    have hle := two_pow_le_ten_pow m (by omega)
    have hcast : -(m : Int) * 30103 / 100000 = -((m * 30103 + 99999) / 100000 : ℕ) := by omega
    rw [hcast, zpow_neg, zpow_neg, zpow_natCast, zpow_natCast]
    exact inv_anti₀ (by positivity) (by exact_mod_cast hle)

theorem ten_zpow_decimalPoint_le (hx : x.Canonical) (hpos : x.significand ≠ 0) :
    (10 : ℚ) ^ (x.decimalPoint - 1) ≤ x.magnitude := by
  have hlog : x.significand.log2 < 53 := (Nat.log2_lt hpos).mpr hx.significand_lt
  have hguess := ten_zpow_le_two_zpow (n := x.significand.log2 + x.exponent)
    (by have := hx.le_exponent; omega)
    (by have := hx.exponent_le; rw [greatestExponent] at this; omega)
  have hpower : (2 : ℚ) ^ ((x.significand.log2 : Int) + x.exponent) ≤ x.magnitude := by
    have hself : (2 : ℚ) ^ x.significand.log2 ≤ x.significand := by
      exact_mod_cast Nat.log2_self_le hpos
    rw [zpow_add₀ (by norm_num), zpow_natCast, magnitude, binary]
    exact mul_le_mul_of_nonneg_right hself (by positivity)
  rw [decimalPoint]
  generalize ((x.significand.log2 : Int) + x.exponent) * 30103 / 100000 = guess at hguess ⊢
  split
  · rw [add_sub_cancel_right]
    exact hguess.trans hpower
  · next h =>
      rw [compareScaled_eq, compare_gt_iff_gt, not_lt, decimal] at h
      rw [show guess + 2 - 1 = guess + 1 by omega]
      simpa [magnitude] using h

/-! ## The search -/

theorem roundsTo_of_gridPoint? {k : Int} {d : Nat} (h : x.gridPoint? k = some d) :
    x.RoundsTo (decimal d k) := by
  rw [gridPoint?] at h
  rw [← readsBack_iff]
  -- Whichever point is chosen, it has been tried.
  split at h
  · cases h
  · next hd _ =>
      cases h
      exact hd
  · next _ hnext =>
      cases h
      exact hnext
  · next hd hnext =>
      split at h <;> cases h
      · exact hd
      · exact hnext
      · rcases Nat.mod_two_eq_zero_or_one (gridFloor k x.significand x.exponent) with hm | hm
        · rwa [hm]
        · rwa [hm]

theorem gridPoint?_ne_none (hx : x.Canonical) (hpos : x.significand ≠ 0) {k : Int}
    (hk : 10 ^ 16 * (10 : ℚ) ^ k ≤ x.magnitude) : x.gridPoint? k ≠ none := by
  have hpoint := roundsTo_gridFloor hx hpos hk
  rw [← readsBack_iff, ← readsBack_iff] at hpoint
  rw [gridPoint?]
  split
  · next hd hnext => simp [hd, hnext] at hpoint
  · exact Option.some_ne_none _
  · exact Option.some_ne_none _
  · split <;> exact Option.some_ne_none _

/-- The search ends on a grid of seventeen digits or before. -/
theorem roundsTo_shortestFuel (hx : x.Canonical) (hpos : x.significand ≠ 0) {fuel digits : Nat}
    (h : fuel + digits = 17) :
    x.RoundsTo (decimal (x.shortestFuel x.decimalPoint (fuel + 1) digits).1
      (x.shortestFuel x.decimalPoint (fuel + 1) digits).2) := by
  induction fuel generalizing digits with
  | zero =>
      obtain rfl : digits = 17 := by omega
      have hk : 10 ^ 16 * (10 : ℚ) ^ (x.decimalPoint - (17 : ℕ)) ≤ x.magnitude := by
        refine le_of_eq_of_le ?_ (ten_zpow_decimalPoint_le hx hpos)
        rw [← zpow_natCast, ← zpow_add₀ (by norm_num)]
        congr 1
        push_cast
        ring
      rw [shortestFuel]
      split
      · next hd => exact roundsTo_of_gridPoint? hd
      · next hnone => exact absurd hnone (gridPoint?_ne_none hx hpos hk)
  | succ fuel ih =>
      rw [shortestFuel]
      split
      · next hd => exact roundsTo_of_gridPoint? hd
      · exact ih (by omega)

theorem decimal_dropZerosFuel (fuel d : Nat) (k : Int) :
    decimal (dropZerosFuel fuel d k).1 (dropZerosFuel fuel d k).2 = decimal d k := by
  induction fuel generalizing d k with
  | zero => rfl
  | succ fuel ih =>
      rw [dropZerosFuel]
      split
      · next h =>
          rw [Bool.and_eq_true, decide_eq_true_eq, decide_eq_true_eq] at h
          obtain ⟨n, rfl⟩ := Nat.dvd_of_mod_eq_zero h.2
          rw [ih, Nat.mul_div_cancel_left n (by decide), decimal, decimal,
            zpow_add_one₀ (by norm_num)]
          push_cast
          ring
      · rfl

/-- The shortest decimal of a double rounds to it. -/
theorem roundsTo_shortest (hx : x.Canonical) (hpos : x.significand ≠ 0) :
    x.RoundsTo (decimal x.shortest.1 x.shortest.2) := by
  have h := roundsTo_shortestFuel hx hpos (show 16 + 1 = 17 from rfl)
  rw [shortest, if_neg hpos]
  dsimp only
  rw [decimal_dropZerosFuel]
  exact h

theorem shortest_fst_ne_zero (hx : x.Canonical) (hpos : x.significand ≠ 0) : x.shortest.1 ≠ 0 := by
  intro hzero
  obtain ⟨hlow, -⟩ := roundsTo_shortest hx hpos
  rw [hzero, decimal, Nat.cast_zero, zero_mul] at hlow
  have hlower : binary 0 (x.exponent - 2) < x.lower := by
    rw [lower, ← not_le, binary_le_binary_iff, not_le]
    obtain ⟨-, -, h⟩ | ⟨-, h⟩ := x.interval_cases <;> omega
  rw [binary, Nat.cast_zero, zero_mul] at hlower
  rcases hlow with hlow | ⟨-, hlow⟩ <;> linarith

/-- Doubles with equal shortest decimals are equal but for their signs. -/
theorem eq_of_shortest (hx : x.Canonical) (hy : y.Canonical) (hpos : x.significand ≠ 0)
    (hpos' : y.significand ≠ 0)
    (h : decimal x.shortest.1 x.shortest.2 = decimal y.shortest.1 y.shortest.2) :
    x.significand = y.significand ∧ x.exponent = y.exponent :=
  eq_of_roundsTo hx hy (roundsTo_shortest hx hpos) (h ▸ roundsTo_shortest hy hpos')

end RolePlan.Binary64
