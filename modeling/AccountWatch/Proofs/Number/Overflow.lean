import AccountWatch.Number.Binary64
import Mathlib.Algebra.Order.Field.Power
import Mathlib.Algebra.Order.Field.Rat
import Mathlib.Tactic.Linarith
import Mathlib.Tactic.NormNum
import Mathlib.Tactic.Ring

/-! Where doubles end. A quotient is too large exactly from the point halfway between the largest double and the
power of two behind it, since there the even neighbour is that power; and a decimal is infinite from the same point
on, however its digits and its exponent share the magnitude. -/
namespace AccountWatch.Binary64

theorem nearestBounds (num den : Nat) : num / den ≤ nearest num den ∧ nearest num den ≤ num / den + 1 := by
  unfold nearest
  dsimp only
  split_ifs <;> omega

theorem nearestReaches {den : Nat} (positive : 0 < den) (num half : Nat) :
    2 * (half + 1) ≤ nearest num den ↔ (4 * half + 3) * den ≤ 2 * num := by
  have parts := Nat.div_add_mod num den
  have rest := Nat.mod_lt num positive
  unfold nearest
  generalize num / den = low at parts ⊢
  generalize num % den = excess at parts rest ⊢
  dsimp only
  rcases Nat.lt_trichotomy low (2 * half + 1) with below | rfl | above
  · have less : den * low ≤ den * (2 * half) := Nat.mul_le_mul_left den (by omega)
    constructor
    · intro reaches
      split_ifs at reaches <;> omega
    · intro large
      nlinarith
  · have product : den * (2 * half + 1) = 2 * (den * half) + den := by ring
    have bound : (4 * half + 3) * den = 4 * (den * half) + 3 * den := by ring
    rw [product] at parts
    rw [bound]
    split_ifs <;> omega
  · have more : den * (2 * half + 2) ≤ den * low := Nat.mul_le_mul_left den (by omega)
    constructor
    · intro _
      nlinarith
    · intro _
      split_ifs <;> omega

theorem placeBounds {units k : Nat} (place : lastPlace units = k) :
    units / Nat.pow 2 k < 2 ^ 53 ∧ (0 < k → 2 ^ 52 ≤ units / Nat.pow 2 k) := by
  unfold lastPlace at place
  change units / 2 ^ k < 2 ^ 53 ∧ (0 < k → 2 ^ 52 ≤ units / 2 ^ k)
  constructor
  · rw [Nat.div_lt_iff_lt_mul (Nat.two_pow_pos k), ← Nat.pow_add]
    exact Nat.lt_of_lt_of_le Nat.lt_log2_self (Nat.pow_le_pow_right (by decide) (by omega))
  · intro above
    rw [Nat.le_div_iff_mul_le (Nat.two_pow_pos k), ← Nat.pow_add, show 52 + k = units.log2 by omega]
    apply Nat.log2_self_le
    rintro rfl
    rw [Nat.log2_zero] at place
    omega

/-- The least natural number that is too large. It is not unfolded: a power like this must not be evaluated by chance. -/
@[irreducible] def overflow : Nat := (2 ^ 54 - 1) * 2 ^ 970

theorem onePositive : 0 < one := by decide +kernel

theorem overflowPlaces : ∃ half k, 0 < half ∧ overflow * one = (2 ^ 54 - 1) * half ∧ limit = 2 ^ 54 * half ∧
    Nat.pow 2 k = half ∧ Nat.pow 2 (k + 1) = 2 * half ∧ Nat.pow 2 (k + 2) = 4 * half :=
  ⟨Nat.pow 2 2044, 2044, by decide +kernel⟩

theorem powersGrow {j k : Nat} (grows : j ≤ k) : Nat.pow 2 j ≤ Nat.pow 2 k :=
  Nat.pow_le_pow_right Nat.two_pos grows

section Places

variable {den half place : Nat} (scaled : Nat) (grid : 0 < den * place)
include grid

theorem staysBelow (some : 0 < half) (small : place ≤ half) (upper : scaled / (den * place) < 2 ^ 53) :
    nearest scaled (den * place) * place < 2 ^ 54 * half ∧ scaled < (2 ^ 54 - 1) * half * den := by
  have near := (nearestBounds scaled (den * place)).2
  constructor
  · calc nearest scaled (den * place) * place ≤ 2 ^ 53 * half := Nat.mul_le_mul (by omega) small
      _ < 2 ^ 54 * half := by omega
  · calc scaled < 2 ^ 53 * (den * place) := (Nat.div_lt_iff_lt_mul grid).mp upper
      _ ≤ 2 ^ 53 * (den * half) := Nat.mul_le_mul_left _ (Nat.mul_le_mul_left den small)
      _ ≤ (2 ^ 54 - 1) * (den * half) := Nat.mul_le_mul_right _ (by decide)
      _ = (2 ^ 54 - 1) * half * den := by ring

theorem reachesAt (same : place = 2 * half) :
    2 ^ 54 * half ≤ nearest scaled (den * place) * place ↔ (2 ^ 54 - 1) * half * den ≤ scaled := by
  have positive : 0 < place := Nat.pos_of_mul_pos_left grid
  have units : 2 ^ 54 * half = 2 * (2 ^ 52 - 1 + 1) * place := by omega
  have double : (4 * (2 ^ 52 - 1) + 3) * (den * place) = 2 * ((2 ^ 54 - 1) * half * den) := by
    rw [same]
    ring
  rw [units, Nat.mul_le_mul_right_iff positive, nearestReaches grid, double]
  exact Nat.mul_le_mul_left_iff Nat.two_pos

theorem reachesAbove (large : 4 * half ≤ place) (lower : 2 ^ 52 ≤ scaled / (den * place)) :
    2 ^ 54 * half ≤ nearest scaled (den * place) * place ∧ (2 ^ 54 - 1) * half * den ≤ scaled := by
  have near := (nearestBounds scaled (den * place)).1
  constructor
  · calc 2 ^ 54 * half = 2 ^ 52 * (4 * half) := by ring
      _ ≤ nearest scaled (den * place) * place := Nat.mul_le_mul (lower.trans near) large
  · calc (2 ^ 54 - 1) * half * den ≤ 2 ^ 54 * half * den :=
          Nat.mul_le_mul_right den (Nat.mul_le_mul_right _ (by decide))
      _ = 2 ^ 52 * (den * (4 * half)) := by ring
      _ ≤ 2 ^ 52 * (den * place) := Nat.mul_le_mul_left _ (Nat.mul_le_mul_left den large)
      _ ≤ scaled := (Nat.le_div_iff_mul_le grid).mp lower

end Places

theorem roundNone {num den : Nat} (positive : 0 < den) : round num den = none ↔ overflow * den ≤ num := by
  have scale : overflow * den ≤ num ↔ overflow * one * den ≤ num * one := by
    rw [Nat.mul_right_comm]
    exact (Nat.mul_le_mul_right_iff onePositive).symm
  obtain ⟨half, k, some, bound, top, once, twice, more⟩ := overflowPlaces
  rw [scale, bound]
  unfold round
  rw [top]
  generalize num * one = scaled
  dsimp only
  generalize last : lastPlace (scaled / den) = place
  obtain ⟨upper, lower⟩ := placeBounds last
  rw [Nat.div_div_eq_div_mul] at upper lower
  have grid : 0 < den * Nat.pow 2 place := Nat.mul_pos positive (Nat.two_pow_pos place)
  simp only [ite_eq_right_iff, reduceCtorEq, imp_false, Nat.not_lt]
  rcases (show place ≤ k ∨ place = k + 1 ∨ k + 2 ≤ place by omega) with below | rfl | above
  · obtain ⟨small, short⟩ := staysBelow scaled grid some (once ▸ powersGrow below) upper
    exact iff_of_false (Nat.not_le.mpr small) (Nat.not_le.mpr short)
  · exact reachesAt scaled grid twice
  · obtain ⟨large, long⟩ := reachesAbove scaled grid (more ▸ powersGrow above) (lower (by omega))
    exact iff_of_true large long

/-! Numbers made by rounding. The rounding stands for a variable before anything is unfolded: a proof that compares
two terms with it inside would evaluate the limit bit by bit. -/

theorem ofIntRounds {i : Int} {result : Option Nat} (rounded : round i.natAbs 1 = result) :
    ofInt i = result.elim (.infinite (i < 0)) (.finite (i < 0)) := by
  suffices ∀ f, f = ofInt → f i = _ from this ofInt rfl
  intro f same
  delta ofInt at same
  have applied := congrFun same i
  rw [rounded] at applied
  rw [applied]
  cases result <;> rfl

theorem ofIntFinite {i : Int} (within : i.natAbs < overflow) : ∃ negative units, ofInt i = .finite negative units := by
  have rounds : round i.natAbs 1 ≠ none := by
    rw [Ne, roundNone Nat.one_pos, Nat.mul_one]
    exact Nat.not_le_of_lt within
  obtain ⟨units, rounded⟩ := Option.ne_none_iff_exists'.mp rounds
  exact ⟨_, _, ofIntRounds rounded⟩

theorem ofDecimalRounds (negative : Bool) {digits : Nat} {exponent : Int} {result : Option Nat}
    (rounded : round (digits * Nat.pow 10 exponent.toNat) (Nat.pow 10 (-exponent).toNat) = result) :
    ofDecimal negative digits exponent =
      if digits = 0 ∨ exponent + (Nat.toDigits 10 digits).length < -330 then .finite negative 0
      else if exponent + (Nat.toDigits 10 digits).length > 310 then .infinite negative
      else result.elim (.infinite negative) (.finite negative) := by
  suffices ∀ f, f = ofDecimal → f negative digits exponent = _ from this ofDecimal rfl
  intro f same
  delta ofDecimal at same
  have applied := congrFun (congrFun (congrFun same negative) digits) exponent
  rw [rounded] at applied
  rw [applied]
  cases result <;> rfl

def decimal (digits : Nat) (exponent : Int) : ℚ := digits * 10 ^ exponent

theorem decimalBelow (digits bound : Nat) (exponent : Int) : decimal digits exponent < bound ↔
    digits * Nat.pow 10 exponent.toNat < bound * Nat.pow 10 (-exponent).toNat := by
  change (digits : ℚ) * 10 ^ exponent < bound ↔ digits * 10 ^ exponent.toNat < bound * 10 ^ (-exponent).toNat
  obtain ⟨n, rfl | rfl⟩ := exponent.eq_nat_or_neg
  · rw [Int.toNat_natCast, Int.toNat_neg_natCast, zpow_natCast, Nat.pow_zero, Nat.mul_one]
    exact_mod_cast Iff.rfl
  · rw [neg_neg, Int.toNat_natCast, Int.toNat_neg_natCast, zpow_neg, zpow_natCast, Nat.pow_zero, Nat.mul_one,
      mul_inv_lt_iff₀ (by positivity)]
    exact_mod_cast Iff.rfl

theorem digitsBetween {n : Nat} (nonzero : n ≠ 0) :
    10 ^ ((Nat.toDigits 10 n).length - 1) ≤ n ∧ n < 10 ^ (Nat.toDigits 10 n).length := by
  have positive : 0 < (Nat.toDigits 10 n).length := Nat.length_toDigits_pos
  constructor
  · by_contra! less
    rcases Nat.eq_zero_or_pos ((Nat.toDigits 10 n).length - 1) with one | more
    · rw [one] at less
      omega
    · have shorter := (Nat.length_toDigits_le_iff (by decide) more).mpr less
      omega
  · exact (Nat.length_toDigits_le_iff (by decide) positive).mp (Nat.le_refl _)

theorem decimalBetween {digits : Nat} (nonzero : digits ≠ 0) (exponent : Int) :
    (10 : ℚ) ^ (exponent + (Nat.toDigits 10 digits).length - 1) ≤ decimal digits exponent ∧
      decimal digits exponent < 10 ^ (exponent + (Nat.toDigits 10 digits).length) := by
  obtain ⟨lower, upper⟩ := digitsBetween nonzero
  have positive : 0 < (Nat.toDigits 10 digits).length := Nat.length_toDigits_pos
  generalize (Nat.toDigits 10 digits).length = places at lower upper positive ⊢
  have power : (0 : ℚ) < 10 ^ exponent := zpow_pos (by decide) exponent
  unfold decimal
  constructor
  · rw [show exponent + places - 1 = (places - 1 : Nat) + exponent by omega, zpow_add₀ (by decide), zpow_natCast]
    exact mul_le_mul_of_nonneg_right (by exact_mod_cast lower) power.le
  · rw [add_comm, zpow_add₀ (by decide), zpow_natCast]
    exact mul_lt_mul_of_pos_right (by exact_mod_cast upper) power

theorem roundDecimal (digits : Nat) (exponent : Int) :
    round (digits * Nat.pow 10 exponent.toNat) (Nat.pow 10 (-exponent).toNat) = none ↔
      overflow ≤ decimal digits exponent := by
  have positive : 0 < Nat.pow 10 (-exponent).toNat := Nat.pow_pos (by decide)
  rw [roundNone positive, ← Nat.not_lt, ← decimalBelow, not_lt]

theorem overflowBetween : 1 ≤ overflow ∧ ∃ k, k = 309 ∧ overflow ≤ Nat.pow 10 k :=
  ⟨by decide +kernel, _, rfl, by decide +kernel⟩

theorem ofDecimalCases (negative : Bool) (digits : Nat) (exponent : Int) :
    decimal digits exponent < overflow ∧ (∃ units, ofDecimal negative digits exponent = .finite negative units) ∨
      overflow ≤ decimal digits exponent ∧ ofDecimal negative digits exponent = .infinite negative := by
  obtain ⟨positive, k, places, wide⟩ := overflowBetween
  obtain ⟨result, rounded⟩ :
      ∃ result, round (digits * Nat.pow 10 exponent.toNat) (Nat.pow 10 (-exponent).toNat) = result := ⟨_, rfl⟩
  have made := ofDecimalRounds negative rounded
  -- the two shortcuts by magnitude agree with what the rounding would give
  split_ifs at made with tiny huge
  · refine .inl ⟨?_, 0, made⟩
    rcases eq_or_ne digits 0 with rfl | nonzero
    · rw [decimal, Nat.cast_zero, zero_mul]
      exact_mod_cast positive
    · have less := tiny.resolve_left nonzero
      have small : exponent + (Nat.toDigits 10 digits).length ≤ 0 := by omega
      calc decimal digits exponent < 10 ^ (exponent + (Nat.toDigits 10 digits).length) :=
            (decimalBetween nonzero exponent).2
        _ ≤ 10 ^ (0 : Int) := zpow_le_zpow_right₀ (by decide) small
        _ ≤ overflow := (zpow_zero _).trans_le (Nat.one_le_cast.mpr positive)
  · refine .inr ⟨?_, made⟩
    have nonzero : digits ≠ 0 := (not_or.mp tiny).1
    have large : (k : Int) ≤ exponent + (Nat.toDigits 10 digits).length - 1 := by omega
    calc (overflow : ℚ) ≤ 10 ^ (k : Int) := by rw [zpow_natCast]; exact_mod_cast wide
      _ ≤ 10 ^ (exponent + (Nat.toDigits 10 digits).length - 1) := zpow_le_zpow_right₀ (by decide) large
      _ ≤ decimal digits exponent := (decimalBetween nonzero exponent).1
  · have none := roundDecimal digits exponent
    rw [rounded] at none
    cases result with
    | some units => exact .inl ⟨not_le.mp fun large => (by cases none.mpr large), units, made⟩
    | none => exact .inr ⟨none.mp rfl, made⟩

theorem ofDecimalFinite {negative sign : Bool} {digits : Nat} {exponent : Int} :
    (∃ units, ofDecimal negative digits exponent = .finite sign units) ↔
      negative = sign ∧ decimal digits exponent < overflow := by
  obtain ⟨below, units, made⟩ | ⟨above, made⟩ := ofDecimalCases negative digits exponent
  · simp [made, below]
  · simp [made, above]

theorem ofDecimalInfinite {negative sign : Bool} {digits : Nat} {exponent : Int} :
    ofDecimal negative digits exponent = .infinite sign ↔
      negative = sign ∧ overflow ≤ decimal digits exponent := by
  obtain ⟨below, units, made⟩ | ⟨above, made⟩ := ofDecimalCases negative digits exponent
  · simp [made, below]
  · simp [made, above]

theorem ofDecimalNumber (negative : Bool) (digits : Nat) (exponent : Int) :
    ofDecimal negative digits exponent ≠ .nan := by
  obtain ⟨_, units, made⟩ | ⟨_, made⟩ := ofDecimalCases negative digits exponent
  · rw [made]
    exact nofun
  · rw [made]
    exact nofun

end AccountWatch.Binary64
