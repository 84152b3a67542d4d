import Mathlib.Tactic.FieldSimp
import Mathlib.Tactic.NormNum
import Phrasebook.Proofs.Decimal.Rounding

/-! The digits that are searched for a double are those of a number that rounds to it (`shortest_rounds`). A grid finer
than the gap between the middles on both sides of the double has such a number, and the last grid of the search, with
17 digits behind the leading one, is that fine. -/
namespace Phrasebook.Decimal

theorem quarters_lt_iff {a b p q : Nat} : quarters a p < quarters b q ↔ a * 2 ^ p < b * 2 ^ q := by
  rw [← not_le,quarters_le_iff,Nat.not_le]

theorem quarters_add (a b q : Nat) : quarters (a + b) q = quarters a q + quarters b q := by
  rw [quarters,quarters,quarters,Nat.cast_add,add_mul,add_div]

theorem ten_zpow_pos (k : Int) : (0 : ℚ) < 10 ^ k := zpow_pos (by norm_num) k

/-- The number that digits at an exponent stand for. -/
def Digits.value (x : Digits) : ℚ := x.digits * 10 ^ x.exponent

section Scaled

variable {n q m p : Nat} {k : Int}

/-- The denominator depends on the grid only. -/
theorem scaled_unit : (scaled n q k).2 = (scaled m p k).2 := by
  rw [scaled,scaled]
  split <;> rfl

theorem scaled_unit_pos : 0 < (scaled n q k).2 := by
  rw [scaled]
  generalize 1076 = places
  split
  · exact Nat.mul_pos (Nat.pow_pos (by decide)) (Nat.pow_pos (by decide))
  · exact Nat.pow_pos (by decide)

theorem scaled_eq : ((scaled n q k).1 : ℚ) * 10 ^ k = quarters n q * (scaled n q k).2 := by
  rw [scaled,quarters]
  generalize 1076 = places
  simp only [Nat.pow_eq]
  split
  next up =>
    obtain ⟨j,rfl⟩ := Int.eq_ofNat_of_zero_le up
    rw [Int.toNat_natCast,zpow_natCast]
    push_cast
    field_simp
  next down =>
    obtain ⟨j,neg⟩ : ∃ j : Nat, k = -(j : Int) := ⟨(-k).toNat,by omega⟩
    subst neg
    rw [neg_neg,Int.toNat_natCast,zpow_neg,zpow_natCast]
    push_cast
    field_simp

/-- Comparing on a grid is comparing the numbers. -/
theorem scaled_le_iff {d : Nat} : (scaled n q k).1 ≤ d * (scaled m p k).2 ↔ quarters n q ≤ d * 10 ^ k := by
  have unit : (0 : ℚ) < (scaled n q k).2 := by exact_mod_cast scaled_unit_pos
  rw [scaled_unit (m := n) (p := q),← mul_le_mul_iff_left₀ unit,← scaled_eq,mul_right_comm,
    mul_le_mul_iff_left₀ (ten_zpow_pos k)]
  exact_mod_cast Iff.rfl

theorem le_scaled_iff {d : Nat} : d * (scaled m p k).2 ≤ (scaled n q k).1 ↔ d * 10 ^ k ≤ quarters n q := by
  have unit : (0 : ℚ) < (scaled n q k).2 := by exact_mod_cast scaled_unit_pos
  rw [scaled_unit (m := n) (p := q),← mul_le_mul_iff_left₀ unit (b := _ * _),← scaled_eq,mul_right_comm,
    mul_le_mul_iff_left₀ (ten_zpow_pos k)]
  exact_mod_cast Iff.rfl

end Scaled

variable {x : Dyadic} {k : Int} {n : Nat}

/-- The test of a number on a grid. -/
def reaches (x : Dyadic) (k : Int) (n : Nat) : Bool :=
  let unit := (scaled (4 * x.mantissa) x.exponent k).2
  let low := (scaled x.below x.exponent k).1
  let high := (scaled (4 * x.mantissa + 2) x.exponent k).1
  let closed : Bool := x.mantissa % 2 = 0
  if closed then low ≤ n * unit && n * unit ≤ high else low < n * unit && n * unit < high

/-- The numbers on a grid to both sides of a double. -/
def down (x : Dyadic) (k : Int) : Nat :=
  (scaled (4 * x.mantissa) x.exponent k).1 / (scaled (4 * x.mantissa) x.exponent k).2

theorem reaches_iff : reaches x k n = true ↔ Rounds x (n * 10 ^ k) := by
  rw [reaches]
  split
  next even =>
    have even := of_decide_eq_true even
    rw [Bool.and_eq_true,decide_eq_true_iff,decide_eq_true_iff,scaled_le_iff,le_scaled_iff]
    constructor
    · rintro ⟨low,high⟩
      exact ⟨low,high,fun odd => by omega⟩
    · intro rounds
      exact ⟨rounds.low,rounds.high⟩
  next odd =>
    rw [decide_eq_true_iff] at odd
    rw [Bool.and_eq_true,decide_eq_true_iff,decide_eq_true_iff,← Nat.not_le,← Nat.not_le,scaled_le_iff,le_scaled_iff,
      not_le,not_le]
    constructor
    · rintro ⟨low,high⟩
      exact ⟨low.le,high.le,fun _ => ⟨low,high⟩⟩
    · intro rounds
      exact rounds.inner (by omega)

/-- The choice between the neighbours, by which of them reach and how far they are. -/
def pick (lower upper : Bool) (down toDown toUp : Nat) : Option Nat :=
  match lower,upper with
  | true,true => some (if toDown < toUp || (toDown = toUp && down % 2 = 0) then down else down + 1)
  | true,false => some down
  | false,true => some (down + 1)
  | false,false => none

/-- What is found on a grid rounds to the double, and if nothing is, then neither neighbour does. -/
theorem onGrid?_cases : (onGrid? x k = none ∧ reaches x k (down x k) = false ∧ reaches x k (down x k + 1) = false) ∨
    ∃ n, onGrid? x k = some n ∧ reaches x k n = true := by
  have unfolded : onGrid? x k = pick (reaches x k (down x k)) (reaches x k (down x k + 1)) (down x k)
    ((scaled (4 * x.mantissa) x.exponent k).1 - down x k * (scaled (4 * x.mantissa) x.exponent k).2)
    ((down x k + 1) * (scaled (4 * x.mantissa) x.exponent k).2 - (scaled (4 * x.mantissa) x.exponent k).1) := rfl
  rw [unfolded]
  cases lower : reaches x k (down x k) with
  | false =>
    cases upper : reaches x k (down x k + 1) with
    | false => exact .inl ⟨rfl,rfl,rfl⟩
    | true => exact .inr ⟨_,rfl,upper⟩
  | true =>
    cases upper : reaches x k (down x k + 1) with
    | false => exact .inr ⟨_,rfl,lower⟩
    | true =>
      refine .inr ⟨_,rfl,?_⟩
      split
      · exact lower
      · exact upper

theorem onGrid?_rounds (found : onGrid? x k = some n) : Rounds x (n * 10 ^ k) := by
  rcases onGrid?_cases (x := x) (k := k) with ⟨missed,-⟩ | ⟨other,hit,reached⟩
  · rw [missed] at found
    cases found
  · rw [hit] at found
    cases found
    exact reaches_iff.mp reached

/-- A grid that is finer than the middles lie apart has a number between them. -/
theorem onGrid?_isSome (positive : 0 < x.mantissa) (fine : 10 ^ k < quarters 3 x.exponent) : (onGrid? x k).isSome := by
  rcases onGrid?_cases (x := x) (k := k) with ⟨-,lower,upper⟩ | ⟨n,hit,-⟩
  · exfalso
    have lower : ¬Rounds x (down x k * 10 ^ k) := by rw [← reaches_iff,lower]; exact Bool.false_ne_true
    have upper : ¬Rounds x ((down x k + 1 : Nat) * 10 ^ k) := by rw [← reaches_iff,upper]; exact Bool.false_ne_true
    have before : down x k * 10 ^ k ≤ quarters (4 * x.mantissa) x.exponent :=
      le_scaled_iff.mp (Nat.div_mul_le_self _ _)
    have after : quarters (4 * x.mantissa) x.exponent < (down x k + 1 : Nat) * 10 ^ k := by
      rw [← not_le,← le_scaled_iff (m := 4 * x.mantissa) (p := x.exponent),Nat.not_le]
      exact Nat.lt_mul_of_div_lt (Nat.lt_succ_self _) scaled_unit_pos
    have low_less : x.low < quarters (4 * x.mantissa) x.exponent := by
      have bound := x.below_le
      exact quarters_lt_iff.mpr (Nat.mul_lt_mul_of_pos_right (by omega) (Nat.two_pow_pos _))
    have less_high : quarters (4 * x.mantissa) x.exponent < x.high :=
      quarters_lt_iff.mpr (Nat.mul_lt_mul_of_pos_right (by omega) (Nat.two_pow_pos _))
    have wide : x.low + quarters 3 x.exponent ≤ x.high := by
      have bound := x.below_le
      rw [Dyadic.low,Dyadic.high,← quarters_add,quarters_le_iff]
      exact Nat.mul_le_mul_right _ (by omega)
    -- The double lies between its neighbours, so the one below fails at the low end, the one above at the high end.
    have down_low : down x k * 10 ^ k ≤ x.low := by
      by_contra inside
      have inside := not_le.mp inside
      exact lower ⟨inside.le,(before.trans_lt less_high).le,fun _ => ⟨inside,before.trans_lt less_high⟩⟩
    have high_up : x.high ≤ (down x k + 1 : Nat) * 10 ^ k := by
      by_contra inside
      have inside := not_le.mp inside
      exact upper ⟨(low_less.trans after).le,inside.le,fun _ => ⟨low_less.trans after,inside⟩⟩
    push_cast at high_up
    linarith
  · rw [hit]
    rfl

/-- No double has its leading digit further behind the point. -/
theorem smallest_le (positive : 0 < x.mantissa) : (10 : ℚ) ^ (-340 : Int) ≤ quarters (4 * x.mantissa) x.exponent := by
  have powers : (2 : ℚ) ^ (66 * 17) ≤ 10 ^ (20 * 17) := by
    rw [pow_mul,pow_mul]
    exact pow_le_pow_left₀ (by norm_num) (by norm_num) 17
  have unit : (10 : ℚ) ^ (-340 : Int) ≤ quarters 4 0 := by
    have split : (1076 : Nat) = 2 + 1074 := rfl
    have enough : (2 : ℚ) ^ 1074 ≤ 2 ^ (66 * 17) := pow_le_pow_right₀ (by norm_num) (by norm_num)
    have bound := enough.trans powers
    have places : (-340 : Int) = -((20 * 17 : Nat) : Int) := rfl
    rw [places,zpow_neg,zpow_natCast,quarters,split,pow_add,pow_zero,mul_one]
    generalize 1074 = e at bound ⊢
    generalize 20 * 17 = f at bound ⊢
    have scale : (0 : ℚ) < 2 ^ e := by positivity
    have four : ((4 : Nat) : ℚ) / (2 ^ 2 * 2 ^ e) = (2 ^ e)⁻¹ := by
      field_simp
      norm_num
    rw [four]
    exact inv_anti₀ scale bound
  refine unit.trans (quarters_le_iff.mpr ?_)
  have power : 1 ≤ 2 ^ x.exponent := Nat.one_le_two_pow
  calc 4 * 2 ^ 0 ≤ 4 * x.mantissa := by omega
    _ ≤ 4 * x.mantissa * 2 ^ x.exponent := Nat.le_mul_of_pos_right _ power

/-- The leading digit of a magnitude stands where it is said to. -/
theorem magnitude_le (positive : 0 < x.mantissa) : (10 : ℚ) ^ magnitude x ≤ quarters (4 * x.mantissa) x.exponent := by
  have unfolded : magnitude x = (Nat.toDigits 10 ((scaled (4 * x.mantissa) x.exponent (-340)).1 /
    (scaled (4 * x.mantissa) x.exponent (-340)).2)).length - 341 := by
    rw [magnitude]
  rw [unfolded]
  generalize digits : (scaled (4 * x.mantissa) x.exponent (-340)).1 /
    (scaled (4 * x.mantissa) x.exponent (-340)).2 = whole
  have bound : (whole : ℚ) * 10 ^ (-340 : Int) ≤ quarters (4 * x.mantissa) x.exponent := by
    rw [← le_scaled_iff (m := 4 * x.mantissa) (p := x.exponent),← digits]
    exact Nat.div_mul_le_self _ _
  have nonzero : 1 ≤ whole := by
    rw [← digits,Nat.le_div_iff_mul_le scaled_unit_pos,le_scaled_iff,Nat.cast_one,one_mul]
    exact smallest_le positive
  have leading : 10 ^ ((Nat.toDigits 10 whole).length - 1) ≤ whole := by
    by_cases one : (Nat.toDigits 10 whole).length = 1
    · rw [one]
      exact nonzero
    · have long := Nat.length_toDigits_pos (b := 10) (n := whole)
      have longer : ¬(Nat.toDigits 10 whole).length ≤ (Nat.toDigits 10 whole).length - 1 := by omega
      rw [Nat.length_toDigits_le_iff (by decide) (by omega),Nat.not_lt] at longer
      exact longer
  have long := Nat.length_toDigits_pos (b := 10) (n := whole)
  have exponent : ((Nat.toDigits 10 whole).length : Int) - 341 =
      ((Nat.toDigits 10 whole).length - 1 : Nat) + (-340 : Int) := by omega
  rw [exponent,zpow_add₀ (by norm_num),zpow_natCast]
  refine le_trans ?_ bound
  exact mul_le_mul_of_nonneg_right (by exact_mod_cast leading) (ten_zpow_pos _).le

/-- The last grid of a search is finer than the middles lie apart. -/
theorem last_grid_fine (positive : 0 < x.mantissa) (short : x.mantissa < 2 ^ 53) :
    (10 : ℚ) ^ (magnitude x - 17) < quarters 3 x.exponent := by
  have bound := magnitude_le positive
  have unit : (0 : ℚ) < quarters 1 x.exponent := by
    rw [quarters]
    positivity
  have times (n : Nat) : quarters n x.exponent = n * quarters 1 x.exponent := by
    rw [quarters,quarters,Nat.cast_one,one_mul,mul_div_assoc]
  -- A mantissa has 53 bits, so three quarters of its unit are more than 1e-17 of the double.
  have less : quarters (4 * x.mantissa) x.exponent ≤ 2 ^ 55 * quarters 1 x.exponent := by
    rw [times]
    refine mul_le_mul_of_nonneg_right ?_ unit.le
    exact_mod_cast (by omega : 4 * x.mantissa ≤ 2 ^ 55)
  rw [zpow_sub₀ (by norm_num),times,div_lt_iff₀ (by positivity)]
  norm_num at less ⊢
  linarith

/-- A search that ends on a grid with a hit finds a number that rounds to the double. -/
theorem search_rounds {top : Int} {fuel count : Nat} (last : (onGrid? x (top - (count + fuel : Nat))).isSome) :
    Rounds x (search x top fuel count).value := by
  induction fuel generalizing count with
  | zero =>
    obtain ⟨n,hit⟩ := Option.isSome_iff_exists.mp last
    rw [Nat.add_zero] at hit
    rw [search,hit]
    exact onGrid?_rounds hit
  | succ fuel ih =>
    rw [search]
    split
    next digits hit => exact onGrid?_rounds hit
    next missed =>
      have shifted : count + 1 + fuel = count + (fuel + 1) := by omega
      exact ih (shifted ▸ last)

/-- The digits of a double stand for a number that rounds to it. -/
theorem shortest_rounds (normal : x.Normal) : Rounds x (shortest x).value := by
  rw [shortest]
  split
  next zero =>
    have ends : x.low = 0 := by
      rw [Dyadic.low,quarters,Dyadic.below,zero]
      norm_num
    have value : (⟨0,0⟩ : Digits).value = 0 := by simp [Digits.value]
    refine ⟨by rw [ends,value],?_,fun odd => by omega⟩
    rw [value,Dyadic.high,quarters]
    positivity
  next nonzero =>
    have positive : 0 < x.mantissa := Nat.pos_of_ne_zero nonzero
    exact search_rounds (onGrid?_isSome positive (last_grid_fine positive normal.short))

end Phrasebook.Decimal
