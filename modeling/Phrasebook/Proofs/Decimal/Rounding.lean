import Mathlib.Tactic.Linarith
import Mathlib.Tactic.Positivity
import Mathlib.Tactic.Ring
import Mathlib.Algebra.Order.Field.Power
import Phrasebook.Decimal

/-! The numbers that round to a double lie between the middles to its neighbours, and a middle belongs to the double
with the even mantissa: no number rounds to two doubles (`Rounds.unique`). -/
namespace Phrasebook.Decimal

/-- `n` quarters of the unit of the binary exponent `q`. -/
def quarters (n q : Nat) : ℚ := n * 2 ^ q / 2 ^ 1076

namespace Dyadic

/-- Twice the middle between the double and the next smaller one; below a power of two the doubles lie closer. -/
def below (x : Dyadic) : Nat :=
  if x.mantissa = Nat.pow 2 52 && 0 < x.exponent then 4 * x.mantissa - 1 else 4 * x.mantissa - 2

def low (x : Dyadic) : ℚ := quarters x.below x.exponent

def high (x : Dyadic) : ℚ := quarters (4 * x.mantissa + 2) x.exponent

/-- Mantissas have 53 bits, and the first is set but for the smallest exponent. -/
structure Normal (x : Dyadic) : Prop where
  short : x.mantissa < 2 ^ 53
  full : 0 < x.exponent → 2 ^ 52 ≤ x.mantissa

theorem ofBits_normal (bits : UInt64) : (ofBits bits).Normal := by
  have fraction : bits.toNat % 2 ^ 52 < 2 ^ 52 := Nat.mod_lt _ (by decide)
  rw [ofBits]
  simp only [Nat.pow_eq]
  split
  · exact ⟨by dsimp only; omega,fun positive => absurd positive (Nat.lt_irrefl 0)⟩
  · exact ⟨by dsimp only; omega,fun _ => Nat.le_add_left _ _⟩

/-- Magnitudes and signs make up the bits. -/
theorem ofBits_injective {a b : UInt64} (same : ofBits a = ofBits b)
    (sign : a.toNat < 2 ^ 63 ↔ b.toNat < 2 ^ 63) : a = b := by
  have wide (bits : UInt64) : bits.toNat < 2 ^ 64 := bits.toNat_lt
  have first := wide a
  have second := wide b
  rw [ofBits,ofBits] at same
  simp only [Nat.pow_eq] at same
  apply UInt64.toNat_inj.mp
  split at same <;> split at same <;> simp only [Dyadic.mk.injEq] at same <;> omega

theorem below_ge (x : Dyadic) : 4 * x.mantissa - 2 ≤ x.below := by
  rw [below]
  split <;> omega

theorem below_le (x : Dyadic) : x.below ≤ 4 * x.mantissa - 1 := by
  rw [below]
  split <;> omega

/-- Doubles ascend with their exponents, those of one exponent with their mantissas. -/
def Before (x y : Dyadic) : Prop :=
  x.exponent < y.exponent ∨ x.exponent = y.exponent ∧ x.mantissa < y.mantissa

variable {x y : Dyadic}

theorem before_or (x y : Dyadic) : x = y ∨ x.Before y ∨ y.Before x := by
  obtain ⟨m,e⟩ := x
  obtain ⟨n,f⟩ := y
  simp only [Before,Dyadic.mk.injEq]
  omega

/-- The upper end of a double is no higher than the lower end of a later one, and if they meet, then one of the two
mantissas is odd. -/
theorem Before.apart (before : x.Before y) (normal : x.Normal) (later : y.Normal) :
    (4 * x.mantissa + 2) * 2 ^ x.exponent ≤ y.below * 2 ^ y.exponent ∧
    ((4 * x.mantissa + 2) * 2 ^ x.exponent = y.below * 2 ^ y.exponent → x.mantissa % 2 = 1 ∨ y.mantissa % 2 = 1) := by
  have short := normal.short
  rcases before with less | ⟨same,less⟩
  · have full := later.full (by omega)
    have bound : 2 ^ 54 - 1 ≤ y.below := by
      have ge := y.below_ge
      rw [below] at ge ⊢
      simp only [Nat.pow_eq] at ge ⊢
      split
      · omega
      next shape =>
        simp only [Bool.and_eq_true,decide_eq_true_eq,not_and] at shape
        omega
    obtain ⟨more,gap⟩ := Nat.exists_eq_add_of_lt less
    have power : 1 ≤ 2 ^ more := Nat.one_le_two_pow
    have scale : y.below * 2 ^ y.exponent = 2 * y.below * 2 ^ more * 2 ^ x.exponent := by
      rw [gap,pow_succ,pow_add]
      ring
    have grown : 2 * y.below ≤ 2 * y.below * 2 ^ more := Nat.le_mul_of_pos_right _ power
    rw [scale]
    constructor
    · exact Nat.mul_le_mul_right _ (by omega)
    · intro meet
      have meet := Nat.eq_of_mul_eq_mul_right (Nat.two_pow_pos _) meet
      exact .inl (by omega)
  · rw [same]
    have ge := y.below_ge
    constructor
    · exact Nat.mul_le_mul_right _ (by omega)
    · intro meet
      have meet := Nat.eq_of_mul_eq_mul_right (Nat.two_pow_pos _) meet
      rw [below] at meet
      split at meet <;> omega

end Dyadic

theorem quarters_le_iff {a b p q : Nat} : quarters a p ≤ quarters b q ↔ a * 2 ^ p ≤ b * 2 ^ q := by
  rw [quarters,quarters,div_le_div_iff_of_pos_right (by positivity)]
  exact_mod_cast Iff.rfl

/-- The numbers that round to a double. -/
structure Rounds (x : Dyadic) (value : ℚ) : Prop where
  low : x.low ≤ value
  high : value ≤ x.high
  inner : x.mantissa % 2 = 1 → x.low < value ∧ value < x.high

variable {x y : Dyadic} {value : ℚ}

theorem Rounds.not_before (first : Rounds x value) (second : Rounds y value) (normal : x.Normal) (later : y.Normal) :
    ¬x.Before y := by
  intro before
  obtain ⟨ordered,odd⟩ := before.apart normal later
  have meet : x.high = y.low :=
    le_antisymm (quarters_le_iff.mpr ordered) (second.low.trans first.high)
  have exact_meet : (4 * x.mantissa + 2) * 2 ^ x.exponent = y.below * 2 ^ y.exponent :=
    Nat.le_antisymm ordered (quarters_le_iff.mp meet.ge)
  rcases odd exact_meet with odd | odd
  · have inside := (first.inner odd).2
    have outside := second.low
    linarith
  · have inside := (second.inner odd).1
    have outside := first.high
    linarith

/-- No number rounds to two doubles. -/
theorem Rounds.unique (first : Rounds x value) (second : Rounds y value) (normal : x.Normal) (other : y.Normal) :
    x = y := by
  rcases x.before_or y with same | before | after
  · exact same
  · exact absurd before (first.not_before second normal other)
  · exact absurd after (second.not_before first other normal)

end Phrasebook.Decimal
