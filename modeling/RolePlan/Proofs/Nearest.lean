import RolePlan.Binary64
import RolePlan.Proofs.Shortest

/-!
# The nearest double is a double

What a decimal is rounded to has a significand of 53 bits at most, and of fewer only with the least
exponent.
-/

namespace RolePlan.Binary64

theorem roundDiv_bounds (num den : Nat) :
    num / den ≤ roundDiv num den ∧ roundDiv num den ≤ num / den + 1 := by
  rw [roundDiv]
  split
  · omega
  · split <;> omega

def scaled (num den : Nat) (e : Int) : Nat × Nat :=
  (num * (powerFraction 2 e).2, den * (powerFraction 2 e).1)

variable {num den : Nat} {e : Int}

theorem le_scaled_iff (hden : 0 < den) {n : Nat} :
    n ≤ (scaled num den e).1 / (scaled num den e).2 ↔ binary n e * den ≤ num := by
  obtain ⟨hp, hq⟩ := powerFraction_pos Nat.two_pos e
  have hcast : ((n * (den * (powerFraction 2 e).1) : ℕ) : ℚ) =
      binary n e * den * (powerFraction 2 e).2 := by
    push_cast
    rw [powerFraction_fst (by decide) e, binary]
    push_cast
    ring
  rw [scaled, Nat.le_div_iff_mul_le (Nat.mul_pos hden hp), ← Nat.cast_le (α := ℚ), hcast,
    Nat.cast_mul]
  exact mul_le_mul_iff_of_pos_right (Nat.cast_pos.mpr hq)

theorem binary_two_pow (n : Nat) (k : Int) : binary (2 ^ n) k = 2 ^ ((n : Int) + k) := by
  rw [binary, zpow_add₀ (by norm_num), zpow_natCast]
  push_cast
  rfl

theorem log2_bounds {n : Nat} (hn : n ≠ 0) :
    (2 : ℚ) ^ (n.log2 : Int) ≤ n ∧ (n : ℚ) < 2 ^ ((n.log2 : Int) + 1) := by
  constructor
  · rw [zpow_natCast]
    exact_mod_cast Nat.log2_self_le hn
  · rw [zpow_add_one₀ (by norm_num), zpow_natCast, ← pow_succ]
    exact_mod_cast Nat.lt_log2_self

/-- The exponent below which no significand of the fraction has 53 bits, if it is possible. -/
def lowExponent (num den : Nat) : Int := max ((num.log2 : Int) - den.log2 - 53) leastExponent

/-- With this exponent the significand has 52 or 53 bits before rounding, or 54. -/
theorem scaled_lowExponent (hnum : num ≠ 0) (hden : den ≠ 0) :
    binary (2 ^ 54) (lowExponent num den) * den > num ∧
      (lowExponent num den ≠ leastExponent →
        binary (2 ^ 52) (lowExponent num den) * den ≤ num) := by
  obtain ⟨hnumLow, hnumHigh⟩ := log2_bounds hnum
  obtain ⟨hdenLow, hdenHigh⟩ := log2_bounds hden
  constructor
  · have hexponent : (num.log2 : Int) + 1 ≤ 54 + lowExponent num den + den.log2 := by
      rw [lowExponent]
      omega
    calc (num : ℚ) < 2 ^ ((num.log2 : Int) + 1) := hnumHigh
      _ ≤ 2 ^ (54 + lowExponent num den + (den.log2 : Int)) :=
          zpow_le_zpow_right₀ (by norm_num) hexponent
      _ = binary (2 ^ 54) (lowExponent num den) * 2 ^ (den.log2 : Int) := by
          rw [binary_two_pow, zpow_add₀ (by norm_num)]
          rfl
      _ ≤ binary (2 ^ 54) (lowExponent num den) * den :=
          mul_le_mul_of_nonneg_left hdenLow (by rw [binary_two_pow]; positivity)
  · intro hne
    have hexponent : 52 + lowExponent num den + (den.log2 + 1) = (num.log2 : Int) := by
      rw [lowExponent] at hne ⊢
      omega
    calc binary (2 ^ 52) (lowExponent num den) * den
        ≤ binary (2 ^ 52) (lowExponent num den) * 2 ^ ((den.log2 : Int) + 1) :=
          mul_le_mul_of_nonneg_left hdenHigh.le (by rw [binary_two_pow]; positivity)
      _ = 2 ^ (num.log2 : Int) := by
          rw [binary_two_pow, ← zpow_add₀ (by norm_num), ← hexponent]
          rfl
      _ ≤ num := hnumLow

def roundingExponent (num den : Nat) : Int :=
  let low := lowExponent num den
  if (scaled num den low).1 / (scaled num den low).2 < Nat.pow 2 53 then low else low + 1

/-- The significand that the fraction is rounded to, which can have one bit too many. -/
def rounded (num den : Nat) : Nat :=
  let (num, den) := scaled num den (roundingExponent num den)
  roundDiv num den

theorem nearestMagnitude?_eq (num den : Nat) : nearestMagnitude? num den =
    (let (m, e) :=
      if rounded num den = Nat.pow 2 53 then (Nat.pow 2 52, roundingExponent num den + 1)
      else (rounded num den, roundingExponent num den)
    if e ≤ greatestExponent then some (m, e) else none) := rfl

theorem leastExponent_le_roundingExponent (num den : Nat) :
    leastExponent ≤ roundingExponent num den := by
  have hleast : leastExponent ≤ lowExponent num den := le_max_right _ _
  rw [roundingExponent]
  split <;> omega

theorem rounded_bounds (hnum : num ≠ 0) (hden : den ≠ 0) :
    rounded num den ≤ 2 ^ 53 ∧
      (roundingExponent num den ≠ leastExponent → 2 ^ 52 ≤ rounded num den) := by
  have hpos := Nat.pos_of_ne_zero hden
  obtain ⟨hhigh, hlow⟩ := scaled_lowExponent hnum hden
  have hdouble (n : Nat) (k : Int) : binary (2 ^ n) (k + 1) = binary (2 ^ (n + 1)) k := by
    rw [binary_two_pow, binary_two_pow]
    congr 1
    push_cast
    ring
  obtain ⟨hfloor, hceil⟩ := roundDiv_bounds (scaled num den (roundingExponent num den)).1
    (scaled num den (roundingExponent num den)).2
  change _ ≤ rounded num den at hfloor
  change rounded num den ≤ _ at hceil
  by_cases h : (scaled num den (lowExponent num den)).1 /
      (scaled num den (lowExponent num den)).2 < Nat.pow 2 53
  · have he : roundingExponent num den = lowExponent num den := if_pos h
    rw [he] at hfloor hceil ⊢
    refine ⟨hceil.trans h, fun hne => ?_⟩
    exact ((le_scaled_iff hpos).mpr (hlow hne)).trans hfloor
  · have he : roundingExponent num den = lowExponent num den + 1 := if_neg h
    have hge := (le_scaled_iff hpos).mp (not_lt.mp h)
    have hlt : (scaled num den (lowExponent num den + 1)).1 /
        (scaled num den (lowExponent num den + 1)).2 < 2 ^ 53 := by
      rw [← not_le, le_scaled_iff hpos, hdouble, not_le]
      exact hhigh
    rw [he] at hfloor hceil ⊢
    refine ⟨hceil.trans hlt, fun _ => ?_⟩
    refine le_trans ((le_scaled_iff hpos).mpr ?_) hfloor
    rw [hdouble]
    exact hge

theorem canonical_of_nearestMagnitude? {m : Nat} (negative : Bool) (hnum : num ≠ 0) (hden : den ≠ 0)
    (h : nearestMagnitude? num den = some (m, e)) : Canonical ⟨negative, m, e⟩ := by
  obtain ⟨hle, hge⟩ := rounded_bounds hnum hden
  have hleast := leastExponent_le_roundingExponent num den
  rw [nearestMagnitude?_eq] at h
  by_cases hcarry : rounded num den = Nat.pow 2 53
  · rw [if_pos hcarry] at h
    obtain ⟨hmost, h⟩ := Option.ite_none_right_eq_some.mp h
    cases h
    have hlt : Nat.pow 2 52 < 2 ^ 53 := by decide
    exact ⟨hlt, fun _ => le_rfl, hleast.trans (Int.le_add_one le_rfl), hmost⟩
  · rw [if_neg hcarry] at h
    obtain ⟨hmost, h⟩ := Option.ite_none_right_eq_some.mp h
    cases h
    exact ⟨lt_of_le_of_ne hle hcarry, hge, hleast, hmost⟩

theorem canonical_zero (negative : Bool) : (zero negative).Canonical :=
  ⟨Nat.two_pow_pos 53, fun h => absurd rfl h, le_rfl,
    show leastExponent ≤ greatestExponent by decide⟩

theorem canonical_of_nearest? {negative : Bool} {digits : Nat} {power : Int} {x : Binary64}
    (h : nearest? negative digits power = some x) : x.Canonical := by
  rw [nearest?] at h
  split at h
  · cases h
    exact canonical_zero negative
  · next hdigits =>
      rw [Bool.or_eq_true, decide_eq_true_eq, not_or] at hdigits
      obtain ⟨-, h⟩ := Option.ite_none_left_eq_some.mp h
      obtain ⟨⟨m, e⟩, hm, rfl⟩ := Option.map_eq_some_iff.mp h
      obtain ⟨hp, hq⟩ := powerFraction_pos (Nat.succ_pos 9) power
      exact canonical_of_nearestMagnitude? negative (Nat.mul_ne_zero hdigits.1 hp.ne') hq.ne' hm

/-- A text is read as a double that there is. -/
theorem canonical_of_parse? {text : String} {x : Binary64} (h : parse? text = some x) :
    x.Canonical := by
  obtain ⟨⟨negative, digits, power⟩, -, h⟩ := Option.bind_eq_some_iff.mp h
  exact canonical_of_nearest? h

end RolePlan.Binary64
